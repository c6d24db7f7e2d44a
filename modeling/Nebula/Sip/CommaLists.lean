import Nebula.Sip.MessageRoundTrip

/- Via, Route and Record-Route values on lines of their own, and the same values on one line with
   commas between them: the parts of a Via line are read one by one, the other lines as one
   address each. -/
namespace SipText
open TextScan

variable {form : FormUrlencoded}

section Lists

/-- A value that has no comma and is read, with or without blanks around it. -/
structure Listed {Item : Type} (read : Text → Option Item) (value : Text) : Prop where
  comma : ',' ∉ value
  line : '\n' ∉ value
  valid : (read (trim whitespace value)).isSome

def listHeaders : List Header := [.via, .routes .recordRoute, .routes .route]

/-- The values of the three headers, under any of the names that they are read by. -/
structure Lists (form : FormUrlencoded) where
  name : Header → Text
  via : List Text
  recordRoute : List Text
  route : List Text
  vias : ∀ value ∈ via, Listed (Via.fromStr form) value
  recordRoutes : ∀ value ∈ recordRoute, Listed (Address.fromStr form) value
  routes : ∀ value ∈ route, Listed (Address.fromStr form) value
  named : ∀ header ∈ listHeaders, headerNamed (name header) = header ∧ LineName (name header)

def commaJoined : List Text → Text
  | [] => []
  | first :: rest => first ++ rest.flatMap (',' :: ·)

/-- A line for each value. -/
def separate (name : Text) (values : List Text) : List (Text × Text) :=
  values.map fun value => (name, value)

/-- One line for all values, where there are any. -/
def joined (name : Text) (values : List Text) : List (Text × Text) :=
  if values = [] then [] else [(name, commaJoined values)]

def Lists.values (lists : Lists form) : Header → List Text
  | .via => lists.via
  | .routes .recordRoute => lists.recordRoute
  | .routes .route => lists.route
  | _ => []

def Lists.entries (lists : Lists form) (write : Text → List Text → List (Text × Text)) :
    List (Text × Text) :=
  listHeaders.flatMap fun header => write (lists.name header) (lists.values header)

/-- The rest of a message: its first line with the header lines before the lists, and all that
    comes after them. -/
structure Around where
  front : Text
  back : Text
  some_ : front ≠ []
  ended : ∀ c ∈ front.getLast?, c = '\n'
  header : ∀ line ∈ (lines '\n' front).tail, blankLine line = false

def Around.text (around : Around) (entries : List (Text × Text)) : Text :=
  around.front ++ (entries.flatMap lineText ++ around.back)

end Lists

section Fields

def viasOf (form : FormUrlencoded) (value : Text) : List Via :=
  (value.splitOn ',').filterMap fun part => Via.fromStr form (trim whitespace part)

def addressesOf (form : FormUrlencoded) (value : Text) : List Address :=
  (Address.fromStr form value).toList

theorem viasOf_trim (value : Text) : viasOf form (trim whitespace value) = viasOf form value := by
  have parts := @trim_parts _ ',' whitespace _ (by decide) value
  have through : ∀ found : List Text, (found.filterMap fun part =>
      Via.fromStr form (trim whitespace part)) =
        (found.map (trim whitespace)).filterMap (Via.fromStr form) := by
    intro found
    rw [List.filterMap_map]
    rfl
  rw [viasOf, viasOf, through, through, parts]

/-- A Via line with commas is read as its values are read one by one. -/
theorem viasOf_joined {values : List Text} (some_ : values ≠ [])
    (absent : ∀ value ∈ values, ',' ∉ value) :
    viasOf form (commaJoined values) = values.flatMap (viasOf form) := by
  have each : ∀ value ∈ values,
      viasOf form value = (Via.fromStr form (trim whitespace value)).toList := by
    intro value member
    rw [viasOf, List.splitOn_eq_singleton (absent value member)]
    cases found : Via.fromStr form (trim whitespace value) <;> simp [found]
  obtain ⟨first, rest, rfl⟩ := List.exists_cons_of_ne_nil some_
  rw [List.flatMap_congr each, viasOf, commaJoined, splitOn_parts first rest absent]
  exact List.filterMap_eq_flatMap_toList _ _

theorem readField_via (old : List Via) (found : List Line) :
    LineRecord.readField Line.header (readHeader form) .via old found =
      some (old ++ (found.filter fun line => line.header = .via).flatMap fun line =>
        viasOf form line.value) :=
  foldlM_collect (fun line : Line => viasOf form line.value) _ old

theorem readField_routes (header : RouteHeader) (old : List Address) (found : List Line) :
    LineRecord.readField Line.header (readHeader form) (.routes header) old found =
      some (old ++ (found.filter fun line => line.header = .routes header).flatMap fun line =>
        addressesOf form line.value) :=
  foldlM_collect (fun line : Line => addressesOf form line.value) _ old

/-- What is written for a list stands on lines of its own header. -/
def Writes (write : Text → List Text → List (Text × Text)) : Prop :=
  ∀ name values, ∀ entry ∈ write name values, entry.1 = name

theorem separate_writes : Writes separate := by
  intro name values entry member
  obtain ⟨value, -, rfl⟩ := List.mem_map.mp member
  rfl

theorem joined_writes : Writes joined := by
  intro name values entry member
  unfold joined at member
  split at member
  · cases member
  · rw [List.mem_singleton.mp member]

variable {write : Text → List Text → List (Text × Text)}

def Lists.lines (lists : Lists form) (write : Text → List Text → List (Text × Text)) :
    List Line :=
  listHeaders.flatMap fun header => (write (lists.name header) (lists.values header)).map readBack

theorem lines_own (writes : Writes write) (lists : Lists form) :
    ∀ header ∈ listHeaders, ∀ line ∈ (write (lists.name header) (lists.values header)).map readBack,
      line.header = header := by
  intro header member line inside
  obtain ⟨entry, written, rfl⟩ := List.mem_map.mp inside
  have named := (lists.named header member).1
  rw [← writes _ _ entry written] at named
  exact named

theorem lines_filter (writes : Writes write) (lists : Lists form) {header : Header}
    (member : header ∈ listHeaders) :
    (lists.lines write).filter (fun line => line.header = header) =
      (write (lists.name header) (lists.values header)).map readBack :=
  LineRecord.filter_printed (lines_own writes lists) (by decide) member

theorem lines_filter_other (writes : Writes write) (lists : Lists form) {header : Header}
    (other : header ∉ listHeaders) :
    (lists.lines write).filter (fun line => line.header = header) = [] := by
  refine List.filter_eq_nil_iff.mpr fun line inside => ?_
  obtain ⟨own, member, written⟩ := List.mem_flatMap.mp inside
  have is := lines_own writes lists own member line written
  simp only [decide_eq_true_eq]
  intro same
  exact other (same ▸ is ▸ member)

/-- Both ways of writing give the same Via values. -/
theorem via_same (lists : Lists form) :
    ((joined (lists.name .via) lists.via).map readBack).flatMap
        (fun line => viasOf form line.value) =
      ((separate (lists.name .via) lists.via).map readBack).flatMap
        fun line => viasOf form line.value := by
  have one : ∀ value, viasOf form (readBack (lists.name .via, value)).value =
      viasOf form value := fun value => viasOf_trim value
  have all : ((separate (lists.name .via) lists.via).map readBack).flatMap (fun line =>
      viasOf form line.value) = lists.via.flatMap (viasOf form) := by
    rw [separate, List.map_map, List.flatMap_map]
    exact List.flatMap_congr fun value _ => one value
  rw [all]
  unfold joined
  by_cases none_ : lists.via = []
  · rw [if_pos none_, none_]
    rfl
  · rw [if_neg none_, List.map_singleton, List.flatMap_singleton, one]
    exact viasOf_joined none_ fun value member => (lists.vias value member).comma

/-- A Route or Record-Route line is read as one address at most. -/
theorem routes_same_iff (name : Text) {values : List Text}
    (listed : ∀ value ∈ values, Listed (Address.fromStr form) value) :
    ((joined name values).map readBack).flatMap (fun line => addressesOf form line.value) =
        ((separate name values).map readBack).flatMap (fun line => addressesOf form line.value) ↔
      values.length ≤ 1 := by
  have long : (((separate name values).map readBack).flatMap fun line =>
      addressesOf form line.value).length = values.length := by
    unfold separate
    induction values with
    | nil => rfl
    | cons value rest ih =>
      obtain ⟨address, read⟩ := Option.isSome_iff_exists.mp (listed value List.mem_cons_self).valid
      have others := ih fun other member => listed other (.tail _ member)
      have own : addressesOf form (readBack (name, value)).value = [address] := by
        rw [addressesOf, readBack, read, Option.toList_some]
      rw [List.map_cons, List.map_cons, List.flatMap_cons, own, List.singleton_append,
        List.length_cons, others, List.length_cons]
  have short : (((joined name values).map readBack).flatMap fun line =>
      addressesOf form line.value).length ≤ 1 := by
    unfold joined
    split
    · exact Nat.zero_le 1
    · rw [List.map_singleton, List.flatMap_singleton, addressesOf]
      cases Address.fromStr form (readBack (name, commaJoined values)).value <;> simp
  constructor
  · intro same
    rw [← long, ← same]
    exact short
  · intro few
    rcases values with _ | ⟨value, _ | ⟨next, rest⟩⟩
    · rfl
    · simp [joined, separate, commaJoined]
    · simp at few

theorem via_field (lists : Lists form) (before after : List Line) (old : List Via) :
    LineRecord.readField Line.header (readHeader form) .via old
        (before ++ lists.lines joined ++ after) =
      LineRecord.readField Line.header (readHeader form) .via old
        (before ++ lists.lines separate ++ after) := by
  have same : ((lists.lines joined).filter fun line => line.header = .via).flatMap
        (fun line => viasOf form line.value) =
      ((lists.lines separate).filter fun line => line.header = .via).flatMap
        fun line => viasOf form line.value := by
    rw [lines_filter joined_writes lists (by decide),
      lines_filter separate_writes lists (by decide)]
    exact via_same lists
  rw [readField_via, readField_via]
  simp only [List.filter_append, List.flatMap_append, same]

theorem other_field (lists : Lists form) (before after : List Line) {header : Header}
    (other : header ∉ listHeaders) (old : header.Value) :
    LineRecord.readField Line.header (readHeader form) header old
        (before ++ lists.lines joined ++ after) =
      LineRecord.readField Line.header (readHeader form) header old
        (before ++ lists.lines separate ++ after) := by
  unfold LineRecord.readField
  simp only [List.filter_append, lines_filter_other joined_writes lists other,
    lines_filter_other separate_writes lists other]

theorem routes_field (lists : Lists form) (before after : List Line) (header : RouteHeader)
    (old : List Address) :
    LineRecord.readField Line.header (readHeader form) (.routes header) old
        (before ++ lists.lines joined ++ after) =
      LineRecord.readField Line.header (readHeader form) (.routes header) old
        (before ++ lists.lines separate ++ after) ↔
      (lists.values (.routes header)).length ≤ 1 := by
  have member : Header.routes header ∈ listHeaders := by cases header <;> decide
  have listed : ∀ value ∈ lists.values (.routes header), Listed (Address.fromStr form) value := by
    cases header with
    | route => exact lists.routes
    | recordRoute => exact lists.recordRoutes
  rw [readField_routes, readField_routes, Option.some_inj, List.append_cancel_left_eq]
  simp only [List.filter_append, List.flatMap_append, lines_filter joined_writes lists member,
    lines_filter separate_writes lists member]
  rw [List.append_cancel_right_eq, List.append_cancel_left_eq]
  exact routes_same_iff _ listed

/-- The fields that are read of a message with joined lists, against those that are read of it
    with a line for each value. -/
theorem fields_joined (lists : Lists form) (before after : List Line) {fields : Fields}
    (read : LineRecord.readLines Line.header (readHeader form) Fields.default
      (before ++ lists.lines separate ++ after) = some fields) :
    ∃ other : Fields, LineRecord.readLines Line.header (readHeader form) Fields.default
        (before ++ lists.lines joined ++ after) = some other ∧
      (∀ header, (∀ routes, header ≠ .routes routes) → other header = fields header) ∧
      ∀ routes, other (.routes routes) = fields (.routes routes) ↔
        (lists.values (.routes routes)).length ≤ 1 := by
  have each := LineRecord.readLines_eq_some.mp read
  have made : ∀ header, ∃ value, LineRecord.readField Line.header (readHeader form) header
      (Fields.default header) (before ++ lists.lines joined ++ after) = some value ∧
      ((∀ routes, header ≠ .routes routes) → value = fields header) := by
    intro header
    by_cases listed : header ∈ listHeaders
    · simp only [listHeaders, List.mem_cons, List.not_mem_nil, or_false] at listed
      rcases listed with rfl | rfl | rfl
      · exact ⟨_, (via_field lists before after _).trans (each .via), fun _ => rfl⟩
      · exact ⟨_, readField_routes _ _ _, fun none_ => absurd rfl (none_ _)⟩
      · exact ⟨_, readField_routes _ _ _, fun none_ => absurd rfl (none_ _)⟩
    · exact ⟨_, (other_field lists before after listed _).trans (each header), fun _ => rfl⟩
  choose other found same using made
  refine ⟨other, LineRecord.readLines_eq_some.mpr found, same, ?_⟩
  intro routes
  rw [← routes_field lists before after routes (Fields.default (.routes routes)),
    each (.routes routes), found (.routes routes)]
  exact Option.some_inj.symm

end Fields

section Messages

theorem headerLines_append {front : List Text} (rest : List Text)
    (solid : ∀ line ∈ front, blankLine line = false) :
    headerLines (front ++ rest) = headerLines front ++ headerLines rest ∧
      afterHeader (front ++ rest) = afterHeader rest := by
  have all : ∀ line ∈ front, (!blankLine line) = true := by
    intro line member
    rw [solid line member, Bool.not_false]
  constructor
  · unfold headerLines
    rw [List.takeWhile_append_of_pos all, List.filterMap_append,
      List.takeWhile_eq_self_iff.mpr all]
  · unfold afterHeader
    rw [List.dropWhile_append_of_pos all]

theorem lineTexts_solid (entries : List (Text × Text)) :
    ∀ line ∈ entries.map lineText, blankLine line = false := by
  intro line member
  obtain ⟨entry, -, rfl⟩ := List.mem_map.mp member
  exact lineText_solid entry

theorem headerLines_lineTexts {entries : List (Text × Text)}
    (named : ∀ entry ∈ entries, LineName entry.1) :
    headerLines (entries.map lineText) = entries.map readBack := by
  have all : ∀ line ∈ entries.map lineText, (!blankLine line) = true := by
    intro line member
    rw [lineTexts_solid entries line member, Bool.not_false]
  rw [headerLines, List.takeWhile_eq_self_iff.mpr all, List.filterMap_map, ← List.filterMap_eq_map]
  exact List.filterMap_congr fun entry inside => lineOf_lineText (named entry inside)

/-- A message is read by its first line, the header lines before, in and after the lists, and the
    rest. -/
theorem fromStr_around (around : Around) {entries : List (Text × Text)}
    (named : ∀ entry ∈ entries, LineName entry.1) (whole : ∀ entry ∈ entries, '\n' ∉ entry.2) :
    Message.fromStr form (around.text entries) =
      (readStart form (trim whitespace ((lines '\n' around.front).headD []))).bind fun start =>
        (LineRecord.readLines Line.header (readHeader form) Fields.default
          (headerLines (lines '\n' around.front).tail ++ entries.map readBack ++
            headerLines (lines '\n' around.back))).bind fun fields =>
          (readBody (fields .contentLength) (afterHeader (lines '\n' around.back))).map
            fun body => { start with fields, body } := by
  obtain ⟨first, others, shape⟩ : ∃ first others, lines '\n' around.front = first :: others := by
    cases shape : lines '\n' around.front with
    | nil =>
      have flat := @lines_flatten _ _ '\n' around.front
      rw [shape] at flat
      exact absurd flat.symm around.some_
    | cons first others => exact ⟨first, others, rfl⟩
  have solid := around.header
  have split : lines '\n' (around.text entries) =
      first :: (others ++ (entries.map lineText ++ lines '\n' around.back)) := by
    rw [Around.text, lines_ended _ around.ended, shape,
      lines_printed entries (fun entry member => ⟨(named entry member).2.1, whole entry member⟩),
      List.cons_append]
  rw [shape, List.tail_cons] at solid
  obtain ⟨outer, outerRest⟩ :=
    headerLines_append (entries.map lineText ++ lines '\n' around.back) solid
  obtain ⟨inner, innerRest⟩ := headerLines_append (lines '\n' around.back) (lineTexts_solid entries)
  unfold Message.fromStr
  rw [split, shape, List.headD_cons, List.tail_cons, List.headD_cons, List.tail_cons, readFields_eq,
    outer, outerRest, inner, innerRest, headerLines_lineTexts named, ← List.append_assoc]
  cases readStart form (trim whitespace first) with
  | none => rfl
  | some start =>
    simp only [Option.bind_some]
    cases LineRecord.readLines Line.header (readHeader form) Fields.default
      (headerLines others ++ entries.map readBack ++ headerLines (lines '\n' around.back)) with
    | none => rfl
    | some fields => rfl

theorem separate_plain (lists : Lists form) :
    ∀ entry ∈ lists.entries separate, LineName entry.1 ∧ '\n' ∉ entry.2 := by
  intro entry member
  obtain ⟨header, listed, written⟩ := List.mem_flatMap.mp member
  obtain ⟨value, inside, rfl⟩ := List.mem_map.mp written
  refine ⟨(lists.named header listed).2, ?_⟩
  simp only [listHeaders, List.mem_cons, List.not_mem_nil, or_false] at listed
  rcases listed with rfl | rfl | rfl
  · exact (lists.vias value inside).line
  · exact (lists.recordRoutes value inside).line
  · exact (lists.routes value inside).line

theorem mem_commaJoined {c : Char} (other : c ≠ ',') {values : List Text}
    (absent : ∀ value ∈ values, c ∉ value) : c ∉ commaJoined values := by
  cases values with
  | nil => simp [commaJoined]
  | cons first rest =>
    simp only [commaJoined, List.mem_append, List.mem_flatMap, List.mem_cons, not_or, not_exists,
      not_and]
    refine ⟨absent first List.mem_cons_self, ?_⟩
    exact fun value member => ⟨other, absent value (.tail _ member)⟩

theorem joined_plain (lists : Lists form) :
    ∀ entry ∈ lists.entries joined, LineName entry.1 ∧ '\n' ∉ entry.2 := by
  intro entry member
  obtain ⟨header, listed, written⟩ := List.mem_flatMap.mp member
  unfold joined at written
  split at written
  · cases written
  · rw [List.mem_singleton.mp written]
    refine ⟨(lists.named header listed).2, mem_commaJoined (by decide) ?_⟩
    intro value inside
    exact (separate_plain lists (lists.name header, value) (List.mem_flatMap.mpr
      ⟨header, listed, List.mem_map.mpr ⟨value, inside, rfl⟩⟩)).2

theorem lists_read {write : Text → List Text → List (Text × Text)} (lists : Lists form) :
    (lists.entries write).map readBack = lists.lines write :=
  List.map_flatMap

theorem joined_read (around : Around) (lists : Lists form) {msg : Message}
    (read : Message.fromStr form (around.text (lists.entries separate)) = some msg) :
    ∃ other, Message.fromStr form (around.text (lists.entries joined)) = some other ∧
      other.via = msg.via ∧
      ∀ header, other.routes header = msg.routes header ↔
        (lists.values (.routes header)).length ≤ 1 := by
  have plain := separate_plain lists
  have plain' := joined_plain lists
  rw [fromStr_around around (fun entry member => (plain entry member).1)
    (fun entry member => (plain entry member).2), lists_read] at read
  rw [fromStr_around around (fun entry member => (plain' entry member).1)
    (fun entry member => (plain' entry member).2), lists_read]
  obtain ⟨start, started, read⟩ := Option.bind_eq_some_iff.mp read
  obtain ⟨fields, filled, read⟩ := Option.bind_eq_some_iff.mp read
  obtain ⟨body, taken, rfl⟩ := Option.map_eq_some_iff.mp read
  obtain ⟨other, filled', same, routes⟩ := fields_joined lists _ _ filled
  have length : other .contentLength = fields .contentLength := same _ (by simp)
  refine ⟨{ start with fields := other, body }, ?_, same .via (by simp), routes⟩
  rw [started, Option.bind_some, filled', Option.bind_some, length, taken]
  rfl

/-- The two forms of the lists give the same vectors exactly where neither Route nor Record-Route
    has more than one value. -/
theorem comma_lists_iff (around : Around) (lists : Lists form) {msg : Message}
    (read : Message.fromStr form (around.text (lists.entries separate)) = some msg) :
    (∃ other, Message.fromStr form (around.text (lists.entries joined)) = some other ∧
      other.via = msg.via ∧ other.routes .route = msg.routes .route ∧
      other.routes .recordRoute = msg.routes .recordRoute) ↔
      lists.route.length ≤ 1 ∧ lists.recordRoute.length ≤ 1 := by
  obtain ⟨other, read', via, routes⟩ := joined_read around lists read
  constructor
  · rintro ⟨again, readAgain, -, route, recordRoute⟩
    obtain rfl := Option.some.inj (read'.symm.trans readAgain)
    exact ⟨(routes .route).mp route, (routes .recordRoute).mp recordRoute⟩
  · rintro ⟨route, recordRoute⟩
    exact ⟨other, read', via, (routes .route).mpr route, (routes .recordRoute).mpr recordRoute⟩

/-- A request with two Via values and two Route values. -/
def forked : Around where
  front := "BYE sip:bob@b SIP/2.0\r\n".toList
  back := "To: <sip:bob@b>\r\nFrom: <sip:al@a>;tag=1\r\nContent-Length: 0\r\n\r\n".toList
  some_ := by decide
  ended := by decide
  header := by decide +kernel

def proxyVias : List Text :=
  ["SIP/2.0/UDP p;branch=z9a".toList, " SIP/2.0/UDP h;branch=z9b".toList]

def proxyRoutes : List Text := ["<sip:p1;lr>".toList, "<sip:p2;lr>".toList]

theorem proxyVias_listed : ∀ value ∈ proxyVias, Listed (Via.fromStr unaryForm) value := by
  refine List.forall_mem_cons.mpr ⟨?_, List.forall_mem_singleton.mpr ?_⟩
  · exact ⟨by decide, by decide, by decide +kernel⟩
  · exact ⟨by decide, by decide, by decide +kernel⟩

theorem proxyRoutes_listed : ∀ value ∈ proxyRoutes, Listed (Address.fromStr unaryForm) value := by
  refine List.forall_mem_cons.mpr ⟨?_, List.forall_mem_singleton.mpr ?_⟩
  · exact ⟨by decide, by decide, by decide +kernel⟩
  · exact ⟨by decide, by decide, by decide +kernel⟩

theorem names_read : ∀ header ∈ listHeaders,
    headerNamed header.name = header ∧ LineName header.name := by
  have shown : ∀ header ∈ listHeaders,
      header ∈ displayed ∧ header ∉ unread ∧ header ≠ .generic := by
    decide
  intro header member
  obtain ⟨display, read, named⟩ := shown header member
  exact ⟨headerNamed_name header display read named, name_plain header display⟩

def twoProxies : Lists unaryForm :=
  ⟨Header.name, proxyVias, [], proxyRoutes, proxyVias_listed, List.forall_mem_nil _,
    proxyRoutes_listed, names_read⟩

theorem comma_lists_iff_proxies : ∃ msg,
    Message.fromStr unaryForm (forked.text (twoProxies.entries separate)) = some msg ∧
      ((∃ other, Message.fromStr unaryForm (forked.text (twoProxies.entries joined)) = some other ∧
        other.via = msg.via ∧ other.routes .route = msg.routes .route ∧
        other.routes .recordRoute = msg.routes .recordRoute) ↔
        twoProxies.route.length ≤ 1 ∧ twoProxies.recordRoute.length ≤ 1) := by
  have parsed : (Message.fromStr unaryForm
      (forked.text (twoProxies.entries separate))).isSome = true := by decide +kernel
  obtain ⟨msg, read⟩ := Option.isSome_iff_exists.mp parsed
  exact ⟨msg, read, comma_lists_iff forked twoProxies read⟩

theorem second_route_lost : ¬ ∀ (form : FormUrlencoded) (around : Around) (lists : Lists form)
    (msg : Message), Message.fromStr form (around.text (lists.entries separate)) = some msg →
      ∃ other, Message.fromStr form (around.text (lists.entries joined)) = some other ∧
        other.via = msg.via ∧ other.routes .route = msg.routes .route ∧
        other.routes .recordRoute = msg.routes .recordRoute := by
  intro equivalent
  have lost : (Message.fromStr unaryForm (forked.text (twoProxies.entries separate))).any
      (fun msg => (Message.fromStr unaryForm (forked.text (twoProxies.entries joined))).all
        fun other => other.routes .route ≠ msg.routes .route) = true := by decide +kernel
  obtain ⟨msg, parsed, differs⟩ := (Option.any_eq_true _ _).mp lost
  obtain ⟨other, parsed', -, route, -⟩ := equivalent unaryForm forked twoProxies msg parsed
  rw [parsed'] at differs
  simp [route] at differs

end Messages

end SipText
