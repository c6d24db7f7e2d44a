import Nebula.Sip.MessageFields
import Mathlib.Logic.Equiv.List

/- Stored messages are kept as text. Which messages come back from their text as they
   were, of all those that were read from some text. -/
namespace SipText
open Sip (Method)
open TextScan DecimalText

variable {form : FormUrlencoded}

section Collecting

theorem foldlM_collect {Item Part : Type} (parts : Item → List Part) (items : List Item)
    (start : List Part) :
    items.foldlM (fun old item => some (old ++ parts item)) start =
      some (start ++ items.flatMap parts) := by
  induction items generalizing start with
  | nil => simp
  | cons item items ih => simp [ih]

/-- A list is collected again if and only if each of its items is. -/
theorem collected_eq_self {Item : Type} (back : Item → Option Item) (items : List Item) :
    (items.flatMap fun item => (back item).toList) = items ↔
      ∀ item ∈ items, back item = some item := by
  induction items with
  | nil => simp
  | cons item items ih =>
    rw [List.flatMap_cons, List.forall_mem_cons, ← ih]
    have shorter : (items.flatMap fun item => (back item).toList).length ≤ items.length := by
      clear ih
      induction items with
      | nil => simp
      | cons next items ih =>
        rw [List.flatMap_cons, List.length_append, List.length_cons]
        have one : (back next).toList.length ≤ 1 := by cases back next <;> simp
        omega
    cases found : back item with
    | none =>
      constructor
      · intro same
        have long := congrArg List.length same
        rw [Option.toList_none, List.nil_append, List.length_cons] at long
        omega
      · rintro ⟨absurd, _⟩
        cases absurd
    | some other => simp

end Collecting

section Kept

/-- What of a field comes back. The fields with a name but no place in the printed text
    must be absent; a missing To or From, whose URI has no scheme, comes back as sip:. -/
def FieldKept (form : FormUrlencoded) : (header : Header) → header.Value → Prop
  | .via, (vias : List Via) => ∀ via ∈ vias, via.Kept
  | .routes _, (addresses : List Address) => ∀ address ∈ addresses, address.Kept form
  | .party _, (address : Address) => address.uri.scheme ≠ [] ∧ address.Kept form
  | .address _, (found : Option Address) => ∀ address ∈ found, address.Kept form
  | .destination, (found : Option Uri) =>
    ∀ uri ∈ found, uri.Kept form ∧ ∀ c ∈ uri.lastText.getLast?, whitespace c = false
  | .text .authUser, (found : Option Text) => found = none
  | .text .authProvider, (found : Option Text) => found = none
  | _, _ => True

structure Message.Kept (form : FormUrlencoded) (msg : Message) : Prop where
  requestUri : ∀ uri ∈ msg.requestUri, uri.Kept form
  fields : ∀ header, FieldKept form header (msg.fields header)
  contentLength : msg.contentLength.toInt = byteLength (msg.body.getD [])

end Kept

section FieldsBack

/-- The line that a printed header line is read as. -/
def readBack (entry : Text × Text) : Line := ⟨entry.1, trim whitespace entry.2⟩

def fieldBack (form : FormUrlencoded) (msg : Message) (header : Header) : Option header.Value :=
  ((msg.printed form header).map readBack).foldlM
    (fun value line => readHeader form header line value) (Fields.default header)

/-- All but two of the fields are printed by their values. -/
theorem printed_texts (msg : Message) {header : Header} (named : header ≠ .generic)
    (measured : header ≠ .contentLength) :
    msg.printed form header =
      (valueTexts form header (msg.fields header)).map fun text => (header.name, text) := by
  cases header
  case generic => exact absurd rfl named
  case contentLength => exact absurd rfl measured
  all_goals rfl

theorem fieldBack_texts (msg : Message) {header : Header} (named : header ≠ .generic)
    (measured : header ≠ .contentLength) :
    fieldBack form msg header =
      (valueTexts form header (msg.fields header)).foldlM
        (fun value text => readHeader form header ⟨header.name, trim whitespace text⟩ value)
        (Fields.default header) := by
  unfold fieldBack
  rw [printed_texts msg named measured, List.map_map, List.foldlM_map]
  rfl

theorem via_back {msg : Message} (read : FieldRead form .via (msg.fields .via)) :
    fieldBack form msg .via = some (msg.fields .via) ↔
      FieldKept form .via (msg.fields .via) := by
  have each : ∀ via ∈ msg.via, ((trim whitespace via.toText).splitOn ',').filterMap
      (fun part => Via.fromStr form (trim whitespace part)) =
        (Via.fromStr form (trim whitespace via.toText)).toList := by
    intro via member
    have comma : ',' ∉ trim whitespace via.toText := fun inside =>
      (read via member).2.1 (mem_of_mem_trim inside)
    rw [List.splitOn_eq_singleton comma]
    cases found : Via.fromStr form (trim whitespace via.toText) with
    | none => simp [trim_idem, found]
    | some other => simp [trim_idem, found]
  have fold : fieldBack form msg .via =
      some (msg.via.flatMap fun via => (Via.fromStr form (trim whitespace via.toText)).toList) := by
    have collected := foldlM_collect (fun via => ((trim whitespace via.toText).splitOn ',').filterMap
      fun part => Via.fromStr form (trim whitespace part)) msg.via []
    rw [List.nil_append, List.flatMap_congr each] at collected
    rw [fieldBack_texts msg (by decide) (by decide), ← collected]
    exact List.foldlM_map
  rw [fold, Option.some_inj]
  refine (collected_eq_self _ msg.via).trans ?_
  exact forall₂_congr fun via member => Via.fromStr_toText (read via member).1

theorem routes_back {msg : Message} (header : RouteHeader)
    (read : FieldRead form (.routes header) (msg.fields (.routes header))) :
    fieldBack form msg (.routes header) = some (msg.fields (.routes header)) ↔
      FieldKept form (.routes header) (msg.fields (.routes header)) := by
  have collected : ((msg.routes header).map (Address.toText form)).foldlM
      (fun (old : List Address) text => readHeader form (.routes header)
        ⟨Header.name (.routes header), trim whitespace text⟩ old) [] =
      some ((msg.routes header).flatMap fun address =>
        (Address.fromStr form (trim whitespace (address.toText form))).toList) := by
    rw [List.foldlM_map]
    simp only [readHeader]
    refine (foldlM_collect (fun address =>
      (Address.fromStr form (trim whitespace (Address.toText form address))).toList)
        (msg.routes header) []).trans ?_
    rw [List.nil_append]
  have fold : fieldBack form msg (.routes header) =
      some ((msg.routes header).flatMap fun address =>
        (Address.fromStr form (trim whitespace (address.toText form))).toList) :=
    (fieldBack_texts msg (by simp) (by simp)).trans collected
  rw [fold, Option.some_inj]
  refine (collected_eq_self _ (msg.routes header)).trans ?_
  exact forall₂_congr fun address member => Address.fromStr_toText (read address member).1

/-- An address that is read has a scheme. -/
theorem scheme_of_read {s : Text} {address : Address}
    (read : Address.fromStr form s = some address) : address.uri.scheme ≠ [] :=
  isScheme_ne_nil (Address.fromStr_formed read).uri.scheme

/-- A To or From that is missing is printed as an address with the scheme sip. -/
theorem missing_text : Address.toText form {} = "<sip:>".toList := by
  have nothing : form.serialize [] = [] := form.serialize_nil
  simp [Address.toText, Address.nameText, Address.paramParts, Uri.toText, Uri.locationText,
    Uri.paramParts, Uri.flagParts, Uri.headersText, nothing]

theorem missing_party : ∃ address,
    Address.fromStr form (trim whitespace (Address.toText form {})) = some address := by
  rw [missing_text]
  exact ⟨_, rfl⟩

theorem party_back {msg : Message} (header : PartyHeader)
    (read : FieldRead form (.party header) (msg.fields (.party header))) :
    fieldBack form msg (.party header) = some (msg.fields (.party header)) ↔
      FieldKept form (.party header) (msg.fields (.party header)) := by
  have fold : fieldBack form msg (.party header) =
      some ((Address.fromStr form (trim whitespace ((msg.party header).toText form))).getD {}) :=
    fieldBack_texts msg (by simp) (by simp)
  rw [fold, Option.some_inj]
  change FieldRead form (.party header) (msg.party header) at read
  change _ = msg.party header ↔ FieldKept form (.party header) (msg.party header)
  constructor
  · intro same
    cases back : Address.fromStr form (trim whitespace ((msg.party header).toText form)) with
    | none =>
      rw [back, Option.getD_none] at same
      rw [← same] at back
      obtain ⟨address, found⟩ := @missing_party form
      rw [found] at back
      cases back
    | some address =>
      rw [back, Option.getD_some] at same
      rw [same] at back
      have known := scheme_of_read back
      rcases read with missing | ⟨formed, _⟩
      · rw [missing] at known
        exact absurd rfl known
      · exact ⟨known, (Address.fromStr_toText formed).mp back⟩
  · rintro ⟨known, kept⟩
    rcases read with missing | ⟨formed, _⟩
    · rw [missing] at known
      exact absurd rfl known
    · rw [(Address.fromStr_toText formed).mpr kept]
      rfl

/-- A field with at most one value that is printed as one line. -/
theorem optional_back {Item : Type} (found : Option Item) (print : Item → Text)
    (read : Text → Option Item) :
    (found.toList.map print).foldlM (fun (_ : Option Item) text => some (read text)) none = some found ↔
      ∀ item ∈ found, read (print item) = some item := by
  cases found with
  | none => simp
  | some item => simp

theorem address_back {msg : Message} (header : AddressHeader)
    (read : FieldRead form (.address header) (msg.fields (.address header))) :
    fieldBack form msg (.address header) = some (msg.fields (.address header)) ↔
      FieldKept form (.address header) (msg.fields (.address header)) := by
  rw [fieldBack_texts msg (by simp) (by simp)]
  refine (optional_back (msg.address header) (Address.toText form)
    fun text => Address.fromStr form (trim whitespace text)).trans ?_
  exact forall₂_congr fun address known => Address.fromStr_toText (read address known).1

theorem number_back (msg : Message) (header : NumberHeader) :
    fieldBack form msg (.number header) = some (msg.fields (.number header)) := by
  rw [fieldBack_texts msg (by simp) (by simp)]
  refine (optional_back (msg.fields (.number header)) (fun value : Int32 => signed value.toInt)
    fun text => readInt32 (trim whitespace text)).mpr fun value _ => ?_
  rw [trim_bare (bare_signed value.toInt), readInt32_signed]

/-- The printed location of the request's destination may end in white space. -/
theorem destination_back {msg : Message}
    (read : FieldRead form .destination (msg.fields .destination)) :
    fieldBack form msg .destination = some (msg.fields .destination) ↔
      FieldKept form .destination (msg.fields .destination) := by
  rw [fieldBack_texts msg (by decide) (by decide)]
  refine (optional_back msg.destination (Uri.toText form)
    fun text => Uri.fromStr form (trim whitespace text)).trans ?_
  exact forall₂_congr fun uri known => Uri.fromStr_trim (read uri known).1

theorem text_back {msg : Message} (header : TextHeader)
    (read : FieldRead form (.text header) (msg.fields (.text header))) :
    fieldBack form msg (.text header) = some (msg.fields (.text header)) := by
  rw [fieldBack_texts msg (by simp) (by simp)]
  have printed : valueTexts form (.text header) (msg.fields (.text header)) =
      (msg.text header).toList.map id := by
    rw [List.map_id]
    rfl
  rw [printed]
  refine (optional_back (msg.text header) id fun text => some (trim whitespace text)).mpr ?_
  exact fun text found => congrArg some (trim_bare (read text found).1)

theorem callid_back {msg : Message} (read : FieldRead form .callid (msg.fields .callid)) :
    fieldBack form msg .callid = some (msg.fields .callid) := by
  rw [fieldBack_texts msg (by decide) (by decide)]
  exact congrArg some (trim_bare read.1)

theorem cseq_back (msg : Message) : fieldBack form msg .cseq = some (msg.fields .cseq) := by
  rw [fieldBack_texts msg (by decide) (by decide)]
  have back := Cseq.fromStr_toText (msg.fields .cseq)
  exact congrArg (fun found => some (found.getD {})) back

theorem credentials_back {msg : Message} (header : CredentialsHeader)
    (read : FieldRead form (.credentials header) (msg.fields (.credentials header))) :
    fieldBack form msg (.credentials header) = some (msg.fields (.credentials header)) := by
  have fold : fieldBack form msg (.credentials header) =
      ((msg.fields (.credentials header) : Option Authorization).toList.map
        Authorization.toText).foldlM
          (fun _ text => (Authorization.fromStr (trim whitespace text)).map some) none :=
    fieldBack_texts msg (by simp) (by simp)
  rw [fold]
  cases found : (msg.fields (.credentials header) : Option Authorization) with
  | none => rfl
  | some auth =>
    have back := Authorization.fromStr_toText (read auth found)
    rw [Option.toList_some, List.map_singleton, List.foldlM_cons, back]
    rfl

theorem challenge_back {msg : Message} (header : ChallengeHeader)
    (read : FieldRead form (.challenge header) (msg.fields (.challenge header))) :
    fieldBack form msg (.challenge header) = some (msg.fields (.challenge header)) := by
  have fold : fieldBack form msg (.challenge header) =
      ((msg.fields (.challenge header) : Option Authenticate).toList.map
        Authenticate.toText).foldlM
          (fun _ text => (Authenticate.fromStr (trim whitespace text)).map some) none :=
    fieldBack_texts msg (by simp) (by simp)
  rw [fold]
  cases found : (msg.fields (.challenge header) : Option Authenticate) with
  | none => rfl
  | some auth =>
    have back := Authenticate.fromStr_toText (read auth found)
    rw [Option.toList_some, List.map_singleton, List.foldlM_cons, back]
    rfl

theorem generic_back {msg : Message} (read : FieldRead form .generic (msg.fields .generic)) :
    fieldBack form msg .generic = some (msg.fields .generic) := by
  have each : ∀ header ∈ (msg.fields .generic : List GenericHeader),
      [GenericHeader.mk header.name (trim whitespace header.content)] = [header] := by
    intro header member
    rw [trim_bare (read header member).2.2.1]
  unfold fieldBack
  rw [List.foldlM_map]
  show List.foldlM _ _ ((msg.fields .generic : List GenericHeader).map fun header =>
    (header.name, header.content)) = _
  rw [List.foldlM_map]
  refine (foldlM_collect (fun header : GenericHeader =>
    [GenericHeader.mk header.name (trim whitespace header.content)]) (msg.fields .generic) []).trans ?_
  rw [List.nil_append, List.flatMap_congr each, List.flatMap_singleton']

theorem contentLength_back {msg : Message}
    (fits : byteLength (msg.body.getD []) ≤ 2147483647) :
    fieldBack form msg .contentLength = some (msg.fields .contentLength) ↔
      msg.contentLength.toInt = byteLength (msg.body.getD []) := by
  have number : readInt32 (trim whitespace (digits (byteLength (msg.body.getD [])))) =
      some (Int32.ofInt (byteLength (msg.body.getD []))) := by
    rw [← signed_natCast, trim_bare (bare_signed _)]
    unfold readInt32
    rw [integer_signed, Option.bind_some, if_pos (by omega)]
  have fold : fieldBack form msg .contentLength =
      some ((readInt32 (trim whitespace (digits (byteLength (msg.body.getD []))))).getD 0) := rfl
  have value : (Int32.ofInt (byteLength (msg.body.getD []))).toInt = byteLength (msg.body.getD []) :=
    Int32.toInt_ofInt_of_le (by omega) (by omega)
  rw [fold, number, Option.some_inj, Option.getD_some]
  constructor
  · intro same
    rw [← value]
    exact congrArg Int32.toInt same.symm
  · intro same
    refine Int32.toInt_inj.mp ?_
    rw [value]
    exact same.symm

end FieldsBack

section Printed

/-- Every header line that is printed of a message that was read is one line. -/
theorem printed_lines {msg : Message} (read : MessageRead form msg) {header : Header}
    (shown : header ∈ displayed) :
    ∀ entry ∈ msg.printed form header, LineName entry.1 ∧ '\n' ∉ entry.2 := by
  have own := name_plain header shown
  have values : header ≠ .generic → header ≠ .contentLength →
      ∀ text ∈ valueTexts form header (msg.fields header), '\n' ∉ text := by
    intro named measured text member
    have field := read.fields header
    cases header with
    | via =>
      obtain ⟨via, known, rfl⟩ := List.mem_map.mp member
      exact (field via known).2.2
    | routes header =>
      obtain ⟨address, known, rfl⟩ := List.mem_map.mp member
      exact (field address known).2
    | number header =>
      obtain ⟨value, _, rfl⟩ := List.mem_map.mp member
      exact not_mem_signed _ (by decide) (by decide)
    | party header =>
      obtain rfl := List.mem_singleton.mp member
      rcases field with missing | ⟨_, line⟩
      · rw [missing, missing_text]
        decide
      · exact line
    | address header =>
      obtain ⟨address, known, rfl⟩ := List.mem_map.mp member
      exact (field address (Option.mem_toList.mp known)).2
    | callid =>
      obtain rfl := List.mem_singleton.mp member
      exact field.2
    | cseq =>
      obtain rfl := List.mem_singleton.mp member
      exact newline_not_mem_cseq _
    | contentLength => exact absurd rfl measured
    | credentials header =>
      obtain ⟨auth, known, rfl⟩ := List.mem_map.mp member
      exact newline_not_mem_digest (authorization_solid (field auth (Option.mem_toList.mp known)))
    | challenge header =>
      obtain ⟨auth, known, rfl⟩ := List.mem_map.mp member
      exact newline_not_mem_digest (authenticate_solid (field auth (Option.mem_toList.mp known)))
    | text header => exact (field text (Option.mem_toList.mp member)).2
    | destination =>
      obtain ⟨uri, known, rfl⟩ := List.mem_map.mp member
      exact (field uri (Option.mem_toList.mp known)).2
    | generic => exact absurd rfl named
  intro entry member
  by_cases named : header = .generic
  · subst named
    obtain ⟨generic, known, rfl⟩ := List.mem_map.mp member
    have field := read.fields .generic generic known
    exact ⟨field.2.1, field.2.2.2⟩
  · by_cases measured : header = .contentLength
    · subst measured
      obtain rfl := List.mem_singleton.mp member
      exact ⟨own, not_mem_digits _ (by decide)⟩
    · rw [printed_texts msg named measured] at member
      obtain ⟨text, known, rfl⟩ := List.mem_map.mp member
      exact ⟨own, values named measured text known⟩

theorem printed_unread {msg : Message} {header : Header} (never : header ∈ unread)
    (nothing : msg.fields header = Fields.default header) : msg.printed form header = [] := by
  simp only [unread, List.mem_cons, List.not_mem_nil, or_false] at never
  rcases never with rfl | rfl | rfl
  · rw [printed_texts msg (by simp) (by simp), nothing]
    rfl
  · rw [printed_texts msg (by simp) (by simp), nothing]
    rfl
  · rw [printed_texts msg (by simp) (by simp), nothing]
    rfl

theorem printed_name (msg : Message) {header : Header} (named : header ≠ .generic) :
    ∀ entry ∈ msg.printed form header, entry.1 = header.name := by
  intro entry member
  by_cases measured : header = .contentLength
  · subst measured
    rw [List.mem_singleton.mp member]
  · rw [printed_texts msg named measured] at member
    obtain ⟨text, _, rfl⟩ := List.mem_map.mp member
    rfl

/-- A printed line is read into the field that it was printed of. -/
theorem printed_own {msg : Message} (read : MessageRead form msg) :
    ∀ header ∈ displayed, ∀ line ∈ (msg.printed form header).map readBack,
      line.header = header := by
  intro header shown line member
  obtain ⟨entry, known, rfl⟩ := List.mem_map.mp member
  show headerNamed entry.1 = header
  by_cases named : header = .generic
  · subst named
    obtain ⟨generic, there, rfl⟩ := List.mem_map.mp known
    exact (read.fields .generic generic there).1
  · by_cases never : header ∈ unread
    · rw [printed_unread never (read.unread header never)] at known
      cases known
    · rw [printed_name msg named entry known]
      exact headerNamed_name header shown never named

/-- The field of a header comes back from what is printed if and only if it is kept. -/
theorem field_back {msg : Message} (read : MessageRead form msg) {header : Header}
    (shown : header ∈ displayed) (measured : header ≠ .contentLength) :
    fieldBack form msg header = some (msg.fields header) ↔
      FieldKept form header (msg.fields header) := by
  have field := read.fields header
  cases header with
  | via => exact via_back field
  | routes header => exact routes_back header field
  | number header => exact iff_of_true (number_back msg header) trivial
  | party header => exact party_back header field
  | address header => exact address_back header field
  | callid => exact iff_of_true (callid_back field) trivial
  | cseq => exact iff_of_true (cseq_back msg) trivial
  | contentLength => exact absurd rfl measured
  | credentials header => exact iff_of_true (credentials_back header field) trivial
  | challenge header => exact iff_of_true (challenge_back header field) trivial
  | text header =>
    refine iff_of_true (text_back header field) ?_
    cases header
    case authUser => exact absurd shown (by decide)
    case authProvider => exact absurd shown (by decide)
    all_goals trivial
  | destination => exact destination_back field
  | generic => exact iff_of_true (generic_back field) trivial

/-- The printed header lines are read as the fields of the message if and only if all
    fields are kept and the length is the body's. -/
theorem fields_back {msg : Message} (read : MessageRead form msg)
    (fits : byteLength (msg.body.getD []) ≤ 2147483647) :
    LineRecord.readLines Line.header (readHeader form) Fields.default
        (displayed.flatMap fun header => (msg.printed form header).map readBack) =
        some msg.fields ↔
      (∀ header, FieldKept form header (msg.fields header)) ∧
        msg.contentLength.toInt = byteLength (msg.body.getD []) := by
  rw [LineRecord.printed_eq_some (printed_own read) displayed_nodup]
  constructor
  · rintro ⟨shown, hidden⟩
    refine ⟨fun header => ?_, (contentLength_back fits).mp (shown .contentLength (by decide))⟩
    by_cases measured : header = .contentLength
    · subst measured
      trivial
    · rcases mem_displayed header with member | rfl | rfl
      · exact (field_back read member measured).mp (shown header member)
      · exact (hidden (.text .authUser) (by decide)).symm
      · exact (hidden (.text .authProvider) (by decide)).symm
  · rintro ⟨kept, length⟩
    refine ⟨fun header member => ?_, fun header hidden => ?_⟩
    · by_cases measured : header = .contentLength
      · subst measured
        exact (contentLength_back fits).mpr length
      · exact (field_back read member measured).mpr (kept header)
    · rcases mem_displayed header with member | rfl | rfl
      · exact absurd member hidden
      · exact (kept (.text .authUser)).symm
      · exact (kept (.text .authProvider)).symm

end Printed

section Lines

/-- What a printed header line is after trimming: the name, a colon and the value. -/
theorem trim_lineText {entry : Text × Text} (named : LineName entry.1) :
    cut ':' (trim whitespace (lineText entry)) =
      (entry.1, some (trimEnd whitespace (' ' :: (entry.2 ++ "\r\n".toList)))) := by
  have shape : lineText entry = entry.1 ++ ':' :: (' ' :: (entry.2 ++ "\r\n".toList)) := by
    unfold lineText
    rw [List.append_assoc, List.append_assoc]
    rfl
  have first : ∀ c ∈ (entry.1 ++ [':']).head?, whitespace c = false := by
    intro c start
    cases name : entry.1 with
    | nil =>
      rw [name] at start
      obtain rfl : ':' = c := by simpa using start
      decide
    | cons head tail =>
      rw [name] at start
      exact named.2.2 c (by rw [name]; simpa using start)
  rw [shape, trim_solid _ ':' _ first (by decide)]
  exact cut_join entry.1 (some _) named.1

theorem trim_value (value : Text) :
    trim whitespace (trimEnd whitespace (' ' :: (value ++ "\r\n".toList))) =
      trim whitespace value := by
  rw [trim_trimEnd, trim_cons_blank _ (by decide), trim_blanks value (by decide)]

theorem lineOf_lineText {entry : Text × Text} (named : LineName entry.1) :
    lineOf (lineText entry) = some (readBack entry) := by
  unfold lineOf readBack
  rw [trim_lineText named, Option.map_some, trim_value]

theorem blankLine_solid {text : Text} {c : Char} (member : c ∈ text)
    (solid : whitespace c = false) : blankLine text = false := by
  have left := trim_ne_nil member solid
  unfold blankLine
  cases shape : trim whitespace text with
  | nil => exact absurd shape left
  | cons head tail => rfl

theorem lineText_solid (entry : Text × Text) : blankLine (lineText entry) = false := by
  have colon : ':' ∈ lineText entry := by simp [lineText]
  exact blankLine_solid colon (by decide)

/-- The loop over printed header lines reads all of them and stops at the blank line. -/
theorem readFields_printed (fields : Fields) (entries : List (Text × Text))
    (named : ∀ entry ∈ entries, LineName entry.1) (rest : List Text) :
    readFields form fields (entries.map lineText ++ "\r\n".toList :: rest) =
      (LineRecord.readLines Line.header (readHeader form) fields (entries.map readBack)).map
        fun after => (after, rest) := by
  have written : ∀ text ∈ entries.map lineText, (!blankLine text) = true := by
    intro text member
    obtain ⟨entry, inside, rfl⟩ := List.mem_map.mp member
    rw [lineText_solid entry, Bool.not_false]
  have stops : ∀ text ∈ ("\r\n".toList :: rest).head?, (!blankLine text) = false := by
    rintro _ ⟨rfl⟩
    decide
  have found : headerLines (entries.map lineText ++ "\r\n".toList :: rest) =
      entries.map readBack := by
    unfold headerLines
    rw [takeWhile_stops written stops, List.filterMap_map, ← List.filterMap_eq_map]
    exact List.filterMap_congr fun entry inside => lineOf_lineText (named entry inside)
  have left : afterHeader (entries.map lineText ++ "\r\n".toList :: rest) = rest := by
    unfold afterHeader
    rw [dropWhile_stops written stops, List.tail_cons]
  rw [readFields_eq, found, left]

theorem lines_printed (entries : List (Text × Text))
    (whole : ∀ entry ∈ entries, '\n' ∉ entry.1 ∧ '\n' ∉ entry.2) (rest : Text) :
    lines '\n' (entries.flatMap lineText ++ rest) =
      entries.map lineText ++ lines '\n' rest := by
  induction entries with
  | nil => rfl
  | cons entry entries ih =>
    obtain ⟨name, value⟩ := whole entry List.mem_cons_self
    have shape : ∀ more : Text, lineText entry ++ more =
        (entry.1 ++ ": ".toList ++ entry.2 ++ ['\r']) ++ '\n' :: more := by
      intro more
      unfold lineText
      simp
    have line : lineText entry = (entry.1 ++ ": ".toList ++ entry.2 ++ ['\r']) ++ ['\n'] := by
      simpa using shape []
    have absent : '\n' ∉ entry.1 ++ ": ".toList ++ entry.2 ++ ['\r'] := by
      simp [name, value]
    rw [List.flatMap_cons, List.append_assoc, shape, lines_append _ _ absent,
      ih fun other member => whole other (List.mem_cons_of_mem _ member), ← line]
    rfl

end Lines

section Start

theorem method_letters (method : Method) :
    ' ' ∉ methodText method ∧ '\n' ∉ methodText method ∧
      (∀ rest : Text, ∀ c ∈ (methodText method ++ rest).head?, whitespace c = false) ∧
        ∀ rest : Text, "SIP/2.0".toList.isPrefixOf (methodText method ++ rest) = false := by
  have first : ∀ head : Char, whitespace head = false → ∀ tail : Text, ∀ rest : Text,
      ∀ c ∈ (head :: tail ++ rest).head?, whitespace c = false := by
    intro head visible tail rest c start
    obtain rfl : head = c := by simpa using start
    exact visible
  cases method
  case INVITE => exact ⟨by decide, by decide, first 'I' (by decide) _, fun rest => rfl⟩
  case REGISTER => exact ⟨by decide, by decide, first 'R' (by decide) _, fun rest => rfl⟩
  case CANCEL => exact ⟨by decide, by decide, first 'C' (by decide) _, fun rest => rfl⟩
  case ACK => exact ⟨by decide, by decide, first 'A' (by decide) _, fun rest => rfl⟩
  case BYE => exact ⟨by decide, by decide, first 'B' (by decide) _, fun rest => rfl⟩
  case SUBSCRIBE => exact ⟨by decide, by decide, first 'S' (by decide) _, fun rest => rfl⟩
  case REFER => exact ⟨by decide, by decide, first 'R' (by decide) _, fun rest => rfl⟩
  case INFO => exact ⟨by decide, by decide, first 'I' (by decide) _, fun rest => rfl⟩
  case NOTIFY => exact ⟨by decide, by decide, first 'N' (by decide) _, fun rest => rfl⟩
  case PUBLISH => exact ⟨by decide, by decide, first 'P' (by decide) _, fun rest => rfl⟩
  case OPTIONS => exact ⟨by decide, by decide, first 'O' (by decide) _, fun rest => rfl⟩

theorem readStart_request (method : Method) {uriText : Text} (space : ' ' ∉ uriText) :
    readStart form (methodText method ++ ' ' :: (uriText ++ " SIP/2.0".toList)) =
      (Uri.fromStr form uriText).map fun uri =>
        { method := some method, requestUri := some uri } := by
  obtain ⟨noSpace, _, _, other⟩ := method_letters method
  have first : cut ' ' (methodText method ++ ' ' :: (uriText ++ " SIP/2.0".toList)) =
      (methodText method, some (uriText ++ " SIP/2.0".toList)) := cut_join _ (some _) noSpace
  have second : cut ' ' (uriText ++ " SIP/2.0".toList) = (uriText, some "SIP/2.0".toList) :=
    cut_join _ (some "SIP/2.0".toList) space
  have three : threeParts (methodText method ++ ' ' :: (uriText ++ " SIP/2.0".toList)) =
      some (methodText method, uriText, "SIP/2.0".toList) := by
    unfold threeParts
    rw [first, Option.bind_some, second]
    rfl
  unfold readStart
  rw [three, Option.bind_some, other, if_neg (by decide), methodFromStr_text]
  rfl

theorem readStart_response (code : Int32) (status : Text) :
    readStart form ("SIP/2.0 ".toList ++ signed code.toInt ++ ' ' :: status) =
      some { code := some code, status := some status } := by
  have space := @not_mem_signed ' ' code.toInt (by decide) (by decide)
  have shape : "SIP/2.0 ".toList ++ signed code.toInt ++ ' ' :: status =
      "SIP/2.0".toList ++ ' ' :: (signed code.toInt ++ ' ' :: status) := by
    rw [List.append_assoc]
    rfl
  have first : cut ' ' ("SIP/2.0".toList ++ ' ' :: (signed code.toInt ++ ' ' :: status)) =
      ("SIP/2.0".toList, some (signed code.toInt ++ ' ' :: status)) :=
    cut_join _ (some _) (by decide)
  have second : cut ' ' (signed code.toInt ++ ' ' :: status) =
      (signed code.toInt, some status) := cut_join _ (some status) space
  have three : threeParts ("SIP/2.0".toList ++ ' ' :: (signed code.toInt ++ ' ' :: status)) =
      some ("SIP/2.0".toList, signed code.toInt, status) := by
    unfold threeParts
    rw [first, Option.bind_some, second]
    rfl
  have version : "SIP/2.0".toList.isPrefixOf
      ("SIP/2.0".toList ++ ' ' :: (signed code.toInt ++ ' ' :: status)) = true := rfl
  unfold readStart
  rw [shape, three, Option.bind_some, version, if_pos rfl, readInt32_signed]
  rfl

/-- The first line that is printed of a message that was read, and what is read of it. -/
theorem start_back {msg : Message} (read : StartRead form msg) :
    Bare whitespace (msg.startText form) ∧ '\n' ∉ msg.startText form ∧
      ((∃ start, readStart form (msg.startText form) = some start ∧
          start.method = msg.method ∧ start.requestUri = msg.requestUri ∧
          start.code = msg.code ∧ start.status = msg.status) ↔
        ∀ uri ∈ msg.requestUri, uri.Kept form) := by
  cases read with
  | request method uri named asked noCode noStatus formed space line =>
    have text : msg.startText form =
        methodText method ++ ' ' :: (uri.toText form ++ " SIP/2.0".toList) := by
      unfold Message.startText
      rw [asked, named]
      rfl
    obtain ⟨_, noBreak, first, _⟩ := method_letters method
    rw [text, readStart_request method space, asked, named, noCode, noStatus]
    refine ⟨⟨first _, fun c final => ?_⟩, by simp [noBreak, line], ?_⟩
    · obtain rfl : '0' = c := by
        simpa [List.getLast?_append, List.getLast?_cons] using final
      decide
    · constructor
      · rintro ⟨start, found, _, same, _⟩ other ⟨⟩
        obtain ⟨again, readUri, rfl⟩ := Option.map_eq_some_iff.mp found
        obtain rfl := Option.some.inj same
        exact (Uri.fromStr_toText formed).mp readUri
      · intro kept
        rw [(Uri.fromStr_toText formed).mpr (kept uri rfl)]
        exact ⟨_, rfl, rfl, rfl, rfl, rfl⟩
  | response code status noMethod notAsked coded told present last line =>
    have text : msg.startText form =
        "SIP/2.0 ".toList ++ signed code.toInt ++ ' ' :: status := by
      unfold Message.startText
      rw [notAsked, coded, told]
      rfl
    have number := @not_mem_signed '\n' code.toInt (by decide) (by decide)
    rw [text, readStart_response code status, notAsked, noMethod, coded, told]
    refine ⟨⟨fun c first => ?_, fun c final => ?_⟩, by simp [number, line], ?_⟩
    · obtain rfl : 'S' = c := by simpa using first
      decide
    · obtain ⟨front, item, split⟩ : ∃ front item, status = front ++ [item] := by
        rcases List.eq_nil_or_concat status with empty | ⟨front, item, split⟩
        · exact absurd empty present
        · exact ⟨front, item, by rw [split, List.concat_eq_append]⟩
      refine last c ?_
      rw [split] at final ⊢
      simpa [List.getLast?_cons] using final
    · exact iff_of_true ⟨_, rfl, rfl, rfl, rfl, rfl⟩ (by simp)

end Start

section Stored

theorem body_back {msg : Message} (read : MessageRead form msg)
    (length : msg.contentLength.toInt = byteLength (msg.body.getD [])) :
    readBody (msg.fields .contentLength) (lines '\n' (msg.body.getD [])) = some msg.body := by
  change readBody msg.contentLength _ = _
  unfold readBody
  by_cases some : 0 < msg.contentLength.toInt
  · obtain ⟨body, there, _⟩ := read.body some
    rw [there, Option.getD_some] at length
    rw [if_pos some, lines_flatten, there, Option.getD_some, length, Int.toNat_natCast,
      takeBytes_all]
    rfl
  · rw [if_neg some, read.noBody (Int.not_lt.mp some)]

theorem body_fits {msg : Message} (read : MessageRead form msg) :
    byteLength (msg.body.getD []) ≤ 2147483647 := by
  have most := msg.contentLength.toInt_lt
  by_cases some : 0 < msg.contentLength.toInt
  · obtain ⟨body, there, short⟩ := read.body some
    rw [there, Option.getD_some]
    omega
  · rw [read.noBody (Int.not_lt.mp some)]
    simp [byteLength]

/-- How the printed text of a message that was read is read again. -/
theorem fromStr_printed {msg : Message} (read : MessageRead form msg) :
    Message.fromStr form (msg.toText form) =
      (readStart form (msg.startText form)).bind fun start =>
        (LineRecord.readLines Line.header (readHeader form) Fields.default
          (displayed.flatMap fun header => (msg.printed form header).map readBack)).bind
          fun fields => (readBody (fields .contentLength) (lines '\n' (msg.body.getD []))).map
            fun body => { start with fields, body } := by
  obtain ⟨bare, noBreak, _⟩ := start_back read.start
  have each : ∀ entry ∈ displayed.flatMap (msg.printed form),
      LineName entry.1 ∧ '\n' ∉ entry.2 := by
    intro entry member
    obtain ⟨header, shown, known⟩ := List.mem_flatMap.mp member
    exact printed_lines read shown entry known
  have shape : msg.toText form = (msg.startText form ++ ['\r']) ++ '\n' ::
      ((displayed.flatMap (msg.printed form)).flatMap lineText ++
        (['\r'] ++ '\n' :: msg.body.getD [])) := by
    unfold Message.toText
    simp
  have first : '\n' ∉ msg.startText form ++ ['\r'] := by simp [noBreak]
  have blank : lines '\n' (['\r'] ++ '\n' :: msg.body.getD []) =
      "\r\n".toList :: lines '\n' (msg.body.getD []) :=
    lines_append ['\r'] (msg.body.getD []) (by decide)
  have split : lines '\n' (msg.toText form) = (msg.startText form ++ "\r\n".toList) ::
      ((displayed.flatMap (msg.printed form)).map lineText ++
        "\r\n".toList :: lines '\n' (msg.body.getD [])) := by
    rw [shape, lines_append _ _ first,
      lines_printed _ (fun entry member => ⟨(each entry member).1.2.1, (each entry member).2⟩),
      blank, List.append_assoc]
    rfl
  have start : trim whitespace (msg.startText form ++ "\r\n".toList) = msg.startText form := by
    rw [trim_blanks _ (by decide), trim_bare bare]
  have back : (displayed.flatMap (msg.printed form)).map readBack =
      displayed.flatMap fun header => (msg.printed form header).map readBack :=
    List.map_flatMap
  unfold Message.fromStr
  rw [split, List.headD_cons, List.tail_cons, start,
    readFields_printed _ _ (fun entry member => (each entry member).1), back]
  cases readStart form (msg.startText form) with
  | none => rfl
  | some start =>
    cases LineRecord.readLines Line.header (readHeader form) Fields.default
        (displayed.flatMap fun header => (msg.printed form header).map readBack) with
    | none => rfl
    | some fields => rfl

/-- A message that was read comes back from its text if and only if it is kept. -/
theorem message_back {msg : Message} (read : MessageRead form msg) :
    Message.fromStr form (msg.toText form) = some msg ↔ msg.Kept form := by
  obtain ⟨_, _, started⟩ := start_back read.start
  have fields := fields_back read (body_fits read)
  rw [fromStr_printed read]
  constructor
  · intro whole
    obtain ⟨start, first, inner⟩ := Option.bind_eq_some_iff.mp whole
    obtain ⟨after, filled, rest⟩ := Option.bind_eq_some_iff.mp inner
    obtain ⟨body, _, same⟩ := Option.map_eq_some_iff.mp rest
    have sameFields : after = msg.fields := congrArg Message.fields same
    rw [sameFields] at filled
    obtain ⟨kept, length⟩ := fields.mp filled
    have method : start.method = msg.method := by rw [← same]
    have uri : start.requestUri = msg.requestUri := by rw [← same]
    have code : start.code = msg.code := by rw [← same]
    have status : start.status = msg.status := by rw [← same]
    exact ⟨started.mp ⟨start, first, method, uri, code, status⟩, kept, length⟩
  · intro kept
    obtain ⟨start, first, method, uri, code, status⟩ := started.mpr kept.requestUri
    rw [first, Option.bind_some, fields.mpr ⟨kept.fields, kept.contentLength⟩, Option.bind_some,
      body_back read kept.contentLength, Option.map_some, method, uri, code, status]

/-- A message read from any text is read again from the text it is printed as if and only
    if it is kept. -/
theorem messages_survive (form : FormUrlencoded) (s : Text) (msg : Message)
    (parsed : Message.fromStr form s = some msg) :
    Message.fromStr form (msg.toText form) = some msg ↔ msg.Kept form :=
  message_back (Message.fromStr_read parsed)

instance charEncodable : Encodable Char where
  encode c := c.toNat
  decode n := some (Char.ofNat n)
  encodek c := by simp

/-- A form encoding by numbers; like the crate's it serializes no pairs as no text. -/
def unaryForm : FormUrlencoded where
  parse text := match text with
    | [] => []
    | _ :: rest => (Encodable.decode (α := List (Text × Text)) rest.length).getD []
  serialize pairs := if pairs.isEmpty then [] else List.replicate (Encodable.encode pairs + 1) '0'
  serialize_nil := rfl
  parse_serialize pairs := by
    cases pairs with
    | nil => rfl
    | cons pair rest => simp [List.replicate_succ]
  serialize_plain pairs c member := by
    cases pairs with
    | nil => cases member
    | cons pair rest =>
      rw [List.eq_of_mem_replicate member]
      decide

def invitation : Text :=
  ("INVITE sip:bob@b SIP/2.0\r\nVia: SIP/2.0/TCP h:5060;branch=z9\r\nRoute: <sip:p;lr>\r\n" ++
    "Contact: <sip:al@h>\r\nTo: <sip:bob@b>\r\nFrom: \"Al\" <sip:al@a>;tag=1\r\n" ++
    "Call-ID: c1\r\nCSeq: 1 INVITE\r\nContent-Length: 5\r\n\r\nv=0\r\n").toList

theorem messages_survive_invitation : ∃ msg,
    Message.fromStr unaryForm invitation = some msg ∧ msg.Kept unaryForm := by
  have printed : (Message.fromStr unaryForm invitation).any
      (fun msg => msg.toText unaryForm = invitation) = true := by decide +kernel
  obtain ⟨msg, parsed, same⟩ := (Option.any_eq_true _ _).mp printed
  refine ⟨msg, parsed, (messages_survive unaryForm invitation msg parsed).mp ?_⟩
  rw [decide_eq_true_eq.mp same]
  exact parsed

def instanceContact : Text :=
  ("INVITE sip:bob@b SIP/2.0\r\nTo: <sip:bob@b>\r\nFrom: <sip:al@a>;tag=1\r\n" ++
    "Contact: <sip:al@h>;+sip.instance=x\r\nContent-Length: 0\r\n\r\n").toList

theorem contact_parameter_lost : ¬∀ (form : FormUrlencoded) (s : Text) (msg : Message),
    Message.fromStr form s = some msg → Message.fromStr form (msg.toText form) = some msg := by
  intro survive
  have lost : (Message.fromStr unaryForm instanceContact).any (fun msg =>
      (Message.fromStr unaryForm (msg.toText unaryForm)).all fun back =>
        back.address .contact ≠ msg.address .contact) = true := by decide +kernel
  obtain ⟨msg, parsed, differs⟩ := (Option.any_eq_true _ _).mp lost
  rw [survive unaryForm instanceContact msg parsed] at differs
  simp at differs

end Stored

end SipText
