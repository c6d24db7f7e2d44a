import Nebula.Sip.MessageText

/- What the fields of a message that was read look like. -/
namespace SipText
open Sip (Method)
open TextScan DecimalText

variable {form : FormUrlencoded}

section Names

/-- The fields that are printed but that no line is read into. -/
def unread : List Header := [.text .contentDisposition, .text .reason, .address .pci]

theorem headerNamed_read (filed : Text) : headerNamed filed ∉ unread := by
  have table : ∀ entry ∈ headerNames, entry.2 ∉ unread := by decide
  unfold headerNamed
  cases found : headerNames.find? fun entry => entry.1 = lowercase filed with
  | none => decide
  | some entry => exact table entry (List.mem_of_find?_eq_some found)

/-- A field that is read is printed under a name that leads back to it. -/
theorem headerNamed_name : ∀ header ∈ displayed, header ∉ unread → header ≠ .generic →
    headerNamed header.name = header := by
  decide +kernel

theorem displayed_nodup : displayed.Nodup := by decide +kernel

theorem mem_displayed (header : Header) : header ∈ displayed ∨
    header = .text .authUser ∨ header = .text .authProvider := by
  cases header
  case routes header => cases header <;> decide
  case number header => cases header <;> decide
  case party header => cases header <;> decide
  case address header => cases header <;> decide
  case credentials header => cases header <;> decide
  case challenge header => cases header <;> decide
  case text header => cases header <;> decide
  all_goals decide

/-- The printed names hold no colon and no line break and start with a letter. -/
theorem name_plain : ∀ header ∈ displayed, ':' ∉ header.name ∧ '\n' ∉ header.name ∧
    ∀ c ∈ header.name.head?, whitespace c = false := by
  decide +kernel

end Names

section Read

/-- A text that came from a line and was trimmed. -/
def LineValue (text : Text) : Prop := Bare whitespace text ∧ '\n' ∉ text

def LineName (text : Text) : Prop :=
  ':' ∉ text ∧ '\n' ∉ text ∧ ∀ c ∈ text.head?, whitespace c = false

def AddressRead (form : FormUrlencoded) (address : Address) : Prop :=
  address.Formed ∧ '\n' ∉ address.toText form

def FieldRead (form : FormUrlencoded) : (header : Header) → header.Value → Prop
  | .via, (vias : List Via) =>
    ∀ via ∈ vias, via.Formed ∧ ',' ∉ via.toText ∧ '\n' ∉ via.toText
  | .routes _, (addresses : List Address) => ∀ address ∈ addresses, AddressRead form address
  | .number _, _ => True
  | .party _, (address : Address) => address = {} ∨ AddressRead form address
  | .address _, (found : Option Address) => ∀ address ∈ found, AddressRead form address
  | .callid, (callid : Text) => LineValue callid
  | .cseq, _ => True
  | .contentLength, _ => True
  | .credentials _, (found : Option Authorization) => ∀ auth ∈ found, auth.Formed
  | .challenge _, (found : Option Authenticate) => ∀ auth ∈ found, auth.Formed
  | .text _, (found : Option Text) => ∀ text ∈ found, LineValue text
  | .destination, (found : Option Uri) =>
    ∀ uri ∈ found, uri.Formed ∧ '\n' ∉ uri.toText form
  | .generic, (headers : List GenericHeader) =>
    ∀ header ∈ headers, headerNamed header.name = .generic ∧ LineName header.name ∧
      LineValue header.content

theorem fieldRead_default (header : Header) : FieldRead form header (Fields.default header) := by
  cases header with
  | via => exact fun via member => absurd member (by simp [Fields.default])
  | routes header => exact fun address member => absurd member (by simp [Fields.default])
  | number header => trivial
  | party header => exact Or.inl rfl
  | address header => exact fun address member => absurd member (by simp [Fields.default])
  | callid =>
    have empty : LineValue [] := ⟨by decide, by simp⟩
    exact empty
  | cseq => trivial
  | contentLength => trivial
  | credentials header => exact fun auth member => absurd member (by simp [Fields.default])
  | challenge header => exact fun auth member => absurd member (by simp [Fields.default])
  | text header => exact fun text member => absurd member (by simp [Fields.default])
  | destination => exact fun uri member => absurd member (by simp [Fields.default])
  | generic => exact fun header member => absurd member (by simp [Fields.default])

theorem addressRead {value : Text} {address : Address} (line : LineValue value)
    (read : Address.fromStr form value = some address) : AddressRead form address :=
  ⟨Address.fromStr_formed read, newline_not_mem_address read line.2⟩

theorem readHeader_keeps {line : Line} (named : LineName line.filed) (valued : LineValue line.value)
    {header : Header} (own : line.header = header) {old new : header.Value}
    (kept : FieldRead form header old) (read : readHeader form header line old = some new) :
    FieldRead form header new := by
  cases header with
  | via =>
    obtain rfl := Option.some.inj read
    intro via member
    rcases List.mem_append.mp member with before | added
    · exact kept via before
    · obtain ⟨part, inside, readVia⟩ := List.mem_filterMap.mp added
      have comma : ',' ∉ trim whitespace part := fun there =>
        not_mem_part line.value part inside (mem_of_mem_trim there)
      have newline : '\n' ∉ trim whitespace part := fun there =>
        valued.2 (mem_of_mem_part inside (mem_of_mem_trim there))
      exact ⟨Via.fromStr_formed readVia, not_mem_viaText (by decide) (by decide) readVia comma,
        not_mem_viaText (by decide) (by decide) readVia newline⟩
  | routes header =>
    obtain rfl := Option.some.inj read
    intro address member
    rcases List.mem_append.mp member with before | added
    · exact kept address before
    · exact addressRead valued (Option.mem_toList.mp added)
  | number header => trivial
  | party header =>
    obtain rfl := Option.some.inj read
    cases found : Address.fromStr form line.value with
    | none =>
      show old = {} ∨ AddressRead form old
      exact kept
    | some address => exact Or.inr (addressRead valued found)
  | address header =>
    obtain rfl := Option.some.inj read
    exact fun address found => addressRead valued found
  | callid =>
    obtain rfl := Option.some.inj read
    exact valued
  | cseq => trivial
  | contentLength => trivial
  | credentials header =>
    obtain ⟨auth, readAuth, rfl⟩ := Option.map_eq_some_iff.mp read
    rintro other ⟨⟩
    exact Authorization.fromStr_formed valued.2 readAuth
  | challenge header =>
    obtain ⟨auth, readAuth, rfl⟩ := Option.map_eq_some_iff.mp read
    rintro other ⟨⟩
    exact Authenticate.fromStr_formed valued.2 readAuth
  | text header =>
    obtain rfl := Option.some.inj read
    rintro text ⟨⟩
    exact valued
  | destination =>
    obtain rfl := Option.some.inj read
    exact fun uri found =>
      ⟨Uri.fromStr_formed found, not_mem_toText (by decide) (by decide) found valued.2⟩
  | generic =>
    obtain rfl := Option.some.inj read
    intro header member
    rcases List.mem_append.mp member with before | added
    · exact kept header before
    · obtain rfl := List.mem_singleton.mp added
      exact ⟨own, named, valued⟩

def blankLine (line : Text) : Bool := (trim whitespace line).isEmpty

def lineOf (text : Text) : Option Line :=
  (cut ':' (trim whitespace text)).2.map fun value =>
    ⟨(cut ':' (trim whitespace text)).1, trim whitespace value⟩

/-- The header lines before the first blank line; those without a colon are passed over. -/
def headerLines (texts : List Text) : List Line :=
  (texts.takeWhile fun text => !blankLine text).filterMap lineOf

def afterHeader (texts : List Text) : List Text :=
  (texts.dropWhile fun text => !blankLine text).tail

/-- The loop over header lines reads them one by one and stops after the blank line. -/
theorem readFields_eq (fields : Fields) (texts : List Text) :
    readFields form fields texts =
      (LineRecord.readLines Line.header (readHeader form) fields (headerLines texts)).map
        fun after => (after, afterHeader texts) := by
  induction texts generalizing fields with
  | nil => rfl
  | cons text texts ih =>
    unfold readFields
    cases blank : blankLine text with
    | true =>
      rw [if_pos (show (trim whitespace text).isEmpty = true from blank)]
      have none : headerLines (text :: texts) = [] := by simp [headerLines, blank]
      have rest : afterHeader (text :: texts) = texts := by simp [afterHeader, blank]
      rw [none, rest]
      rfl
    | false =>
      rw [if_neg (show ¬(trim whitespace text).isEmpty = true from Bool.eq_false_iff.mp blank)]
      have rest : afterHeader (text :: texts) = afterHeader texts := by simp [afterHeader, blank]
      rw [rest]
      cases colon : (cut ':' (trim whitespace text)).2 with
      | none =>
        have skipped : headerLines (text :: texts) = headerLines texts := by
          simp [headerLines, blank, lineOf, colon]
        rw [skipped]
        exact ih fields
      | some value =>
        have first : headerLines (text :: texts) =
            ⟨(cut ':' (trim whitespace text)).1, trim whitespace value⟩ :: headerLines texts := by
          simp [headerLines, blank, lineOf, colon]
        rw [first]
        unfold LineRecord.readLines
        rw [List.foldlM_cons]
        show (parseLine form fields _).bind _ = ((parseLine form fields _).bind _).map _
        cases parseLine form fields ⟨(cut ':' (trim whitespace text)).1, trim whitespace value⟩ with
        | none => rfl
        | some next => exact ih next

theorem lineOf_formed {s text : Text} {line : Line} (inside : text ∈ lines '\n' s)
    (is : lineOf text = some line) : LineName line.filed ∧ LineValue line.value := by
  obtain ⟨value, colon, rfl⟩ := Option.map_eq_some_iff.mp is
  have noBreak : '\n' ∉ trim whitespace text := newline_not_mem_trim (by decide) inside
  have bare := @bare_trim _ whitespace text
  have parts := @cut_eq_some _ _ _ (trim whitespace text) _ _ (Prod.ext rfl colon)
  rw [parts.2] at noBreak bare
  refine ⟨⟨parts.1, fun named => noBreak (List.mem_append_left _ named), fun c start => ?_⟩,
    bare_trim value, fun valued => noBreak ?_⟩
  · refine bare.1 c ?_
    rw [List.head?_append, Option.mem_def.mp start]
    rfl
  · exact List.mem_append_right _ (List.mem_cons_of_mem _ (mem_of_mem_trim valued))

/-- The loop reads the lines that have a colon. -/
theorem readFields_some {s : Text} {texts : List Text} {fields after : Fields}
    {rest : List Text} (all : ∀ line ∈ texts, line ∈ lines '\n' s)
    (read : readFields form fields texts = some (after, rest)) :
    ∃ found : List Line, (∀ line ∈ found, LineName line.filed ∧ LineValue line.value) ∧
      LineRecord.readLines Line.header (readHeader form) fields found = some after := by
  rw [readFields_eq] at read
  obtain ⟨last, done, same⟩ := Option.map_eq_some_iff.mp read
  cases same
  refine ⟨headerLines texts, fun line member => ?_, done⟩
  obtain ⟨text, taken, is⟩ := List.mem_filterMap.mp member
  exact lineOf_formed (all text (List.takeWhile_subset _ taken)) is

end Read

section Whole

/-- The first line that was read: of a request or of a response. -/
inductive StartRead (form : FormUrlencoded) (msg : Message) : Prop where
  | request (method : Method) (uri : Uri) (named : msg.method = some method)
      (asked : msg.requestUri = some uri) (noCode : msg.code = none) (noStatus : msg.status = none)
      (formed : uri.Formed) (space : ' ' ∉ uri.toText form) (line : '\n' ∉ uri.toText form)
  | response (code : Int32) (status : Text) (noMethod : msg.method = none)
      (notAsked : msg.requestUri = none) (coded : msg.code = some code)
      (told : msg.status = some status) (present : status ≠ [])
      (last : ∀ c ∈ status.getLast?, whitespace c = false) (line : '\n' ∉ status)

structure MessageRead (form : FormUrlencoded) (msg : Message) : Prop where
  start : StartRead form msg
  fields : ∀ header, FieldRead form header (msg.fields header)
  unread : ∀ header ∈ unread, msg.fields header = Fields.default header
  noBody : msg.contentLength.toInt ≤ 0 → msg.body = none
  body : 0 < msg.contentLength.toInt →
    ∃ body, msg.body = some body ∧ (byteLength body : Int) ≤ msg.contentLength.toInt

theorem readStart_some {line : Text} {msg : Message} (bare : Bare whitespace line)
    (noBreak : '\n' ∉ line) (read : readStart form line = some msg) : StartRead form msg := by
  obtain ⟨parts, three, inner⟩ := Option.bind_eq_some_iff.mp read
  obtain ⟨rest, first, others⟩ := Option.bind_eq_some_iff.mp three
  obtain ⟨third, second, rfl⟩ := Option.map_eq_some_iff.mp others
  have front := (@cut_eq_some _ _ _ line _ _ (Prod.ext rfl first)).2
  obtain ⟨space, back⟩ := @cut_eq_some _ _ _ rest _ _ (Prod.ext rfl second)
  rw [back] at front
  have inRest : ∀ c ∈ (cut ' ' rest).1, c ∈ line := by
    intro c member
    rw [front]
    exact List.mem_append_right _ (List.mem_cons_of_mem _ (List.mem_append_left _ member))
  have inThird : ∀ c ∈ third, c ∈ line := by
    intro c member
    rw [front]
    exact List.mem_append_right _ (List.mem_cons_of_mem _
      (List.mem_append_right _ (List.mem_cons_of_mem _ member)))
  split at inner
  · obtain ⟨code, _, rfl⟩ := Option.map_eq_some_iff.mp inner
    have last : ∀ c ∈ (' ' :: third).getLast?, whitespace c = false := by
      intro c final
      refine bare.2 c ?_
      rw [front, List.getLast?_append, List.getLast?_cons, List.getLast?_append,
        Option.mem_def.mp final]
      simp
    refine .response code third rfl rfl rfl rfl ?_ ?_ fun member => noBreak (inThird _ member)
    · rintro rfl
      have white := last ' ' (by simp)
      exact absurd white (by decide)
    · intro c final
      refine last c ?_
      rw [List.getLast?_cons, Option.mem_def.mp final]
      rfl
  · obtain ⟨method, _, rest'⟩ := Option.bind_eq_some_iff.mp inner
    obtain ⟨uri, readUri, rfl⟩ := Option.map_eq_some_iff.mp rest'
    exact .request method uri rfl rfl rfl rfl (Uri.fromStr_formed readUri)
      (not_mem_toText (by decide) (by decide) readUri space)
      (not_mem_toText (by decide) (by decide) readUri fun member => noBreak (inRest _ member))

theorem byteLength_takeBytes {n : Nat} {s body : Text} (read : takeBytes n s = some body) :
    byteLength body ≤ n := by
  induction s generalizing n body with
  | nil =>
    cases n with
    | zero => obtain rfl := Option.some.inj read; simp [byteLength]
    | succ n => obtain rfl := Option.some.inj read; simp [byteLength]
  | cons c s ih =>
    cases n with
    | zero => obtain rfl := Option.some.inj read; simp [byteLength]
    | succ n =>
      unfold takeBytes at read
      split at read
      · obtain ⟨rest, found, rfl⟩ := Option.map_eq_some_iff.mp read
        have shorter := ih found
        have split : byteLength (c :: rest) = c.utf8Size + byteLength rest := by simp [byteLength]
        omega
      · cases read

theorem takeBytes_front (body rest : Text) :
    takeBytes (byteLength body) (body ++ rest) = some body := by
  induction body with
  | nil => cases rest <;> rfl
  | cons c body ih =>
    have positive := c.utf8Size_pos
    have length : byteLength (c :: body) = c.utf8Size + byteLength body := by simp [byteLength]
    obtain ⟨n, shape⟩ : ∃ n, c.utf8Size + byteLength body = n + 1 :=
      ⟨c.utf8Size + byteLength body - 1, by omega⟩
    have left : n + 1 - c.utf8Size = byteLength body := by omega
    rw [length, shape, List.cons_append]
    unfold takeBytes
    rw [if_pos (by omega), left, ih]
    rfl

theorem takeBytes_all (body : Text) : takeBytes (byteLength body) body = some body := by
  have whole := takeBytes_front body []
  rwa [List.append_nil] at whole

/-- Every message that is read from a text is of this shape. -/
theorem Message.fromStr_read {s : Text} {msg : Message}
    (parsed : Message.fromStr form s = some msg) : MessageRead form msg := by
  obtain ⟨start, first, inner⟩ := Option.bind_eq_some_iff.mp parsed
  obtain ⟨⟨after, rest⟩, fields, last⟩ := Option.bind_eq_some_iff.mp inner
  obtain ⟨body, bytes, rfl⟩ := Option.map_eq_some_iff.mp last
  have noBreak : '\n' ∉ trim whitespace ((lines '\n' s).headD []) := by
    cases shape : lines '\n' s with
    | nil =>
      intro member
      exact absurd (mem_of_mem_trim member) (by simp)
    | cons line rest =>
      exact @newline_not_mem_trim _ _ _ _ s _ (by decide) (by rw [shape]; exact List.mem_cons_self)
  have started := readStart_some (bare_trim _) noBreak first
  obtain ⟨found, each, done⟩ := readFields_some (s := s)
    (fun line member => List.mem_of_mem_tail member) fields
  refine ⟨?_, ?_, ?_, ?_, ?_⟩
  · rcases started with ⟨method, uri, named, asked, noCode, noStatus, formed, space, line⟩ |
      ⟨code, status, noMethod, notAsked, coded, told, present, last, line⟩
    · exact .request method uri named asked noCode noStatus formed space line
    · exact .response code status noMethod notAsked coded told present last line
  · exact LineRecord.readLines_keeps (FieldRead form)
      (fun line member old new kept made =>
        readHeader_keeps (each line member).1 (each line member).2 rfl kept made)
      fieldRead_default done
  · intro header member
    have own := LineRecord.readLines_eq_some.mp done header
    have other : ∀ line ∈ found, line.header ≠ header := by
      intro line _ same
      have named := headerNamed_read line.filed
      rw [show headerNamed line.filed = header from same] at named
      exact named member
    rw [LineRecord.readField_none header _ other] at own
    exact (Option.some.inj own).symm
  · intro short
    change (after .contentLength).toInt ≤ 0 at short
    unfold readBody at bytes
    rw [if_neg (Int.not_lt.mpr short)] at bytes
    exact (Option.some.inj bytes).symm
  · intro long
    change 0 < (after .contentLength).toInt at long
    unfold readBody at bytes
    rw [if_pos long] at bytes
    obtain ⟨text, taken, rfl⟩ := Option.map_eq_some_iff.mp bytes
    have short : byteLength text ≤ (after .contentLength).toInt.toNat := byteLength_takeBytes taken
    refine ⟨text, rfl, ?_⟩
    show (byteLength text : Int) ≤ (after .contentLength).toInt
    omega

end Whole

end SipText
