import Nebula.Sip.MessagePanics

/- Messages on a stream. One call of async_parse after the other takes them off the stream,
   whatever their bodies hold. -/
namespace SipText
open TextScan DecimalText

section Streams

def keepAlives (count : Nat) : Text := (List.replicate count "\r\n".toList).flatten

/-- Messages with keep-alives before each of them and at the end. -/
def streamText (form : FormUrlencoded) : List (Nat × Message) → Nat → Text
  | [], tail => keepAlives tail
  | (gap, msg) :: items, tail => keepAlives gap ++ (msg.toText form ++ streamText form items tail)

/-- So many calls, or as many as there are up to one that returns no message. -/
def calls (form : FormUrlencoded) : Nat → Text → List (Outcome (Message × Text))
  | 0, _ => []
  | count + 1, stream =>
    match Message.asyncParse form stream with
    | .ok (msg, rest) => .ok (msg, rest) :: calls form count rest
    | other => [other]

def bodyRead (read : Message × Text) : Option Text × Text := (read.1.body, read.2)

/-- Each call takes one message with its body, and the last finds the end of the stream. -/
def callsExpected (form : FormUrlencoded) :
    List (Nat × Message) → Nat → List (Outcome (Option Text × Text))
  | [], _ => [.error .connectionEof]
  | (_, msg) :: items, tail =>
    .ok (msg.body, streamText form items tail) :: callsExpected form items tail

end Streams

variable {form : FormUrlencoded}

section Heads

/-- What is printed before the blank line and the body. -/
def Message.headText (form : FormUrlencoded) (msg : Message) : Text :=
  msg.startText form ++ "\r\n".toList ++ (displayed.flatMap (msg.printed form)).flatMap lineText

def lengthEntry (msg : Message) : Text × Text :=
  (Header.name .contentLength, digits (byteLength (msg.body.getD [])))

theorem lineText_ends (front : Text) (entry : Text × Text) :
    ∀ item ∈ (front ++ lineText entry).getLast?, item = '\n' := by
  intro item final
  have shape : front ++ lineText entry =
      (front ++ (entry.1 ++ ": ".toList ++ entry.2 ++ ['\r'])) ++ ['\n'] := by
    simp [lineText]
  rw [shape, List.getLast?_concat] at final
  exact (Option.some.inj final).symm

/-- The length of the body is printed last. -/
theorem headText_split (msg : Message) : ∃ front : Text,
    msg.headText form = front ++ lineText (lengthEntry msg) ∧
      ∀ item ∈ front.getLast?, item = '\n' := by
  have last : displayed = displayed.dropLast ++ [.contentLength] := by decide +kernel
  have length : msg.printed form .contentLength = [lengthEntry msg] := rfl
  refine ⟨msg.startText form ++ "\r\n".toList ++
    (displayed.dropLast.flatMap (msg.printed form)).flatMap lineText, ?_, ?_⟩
  · unfold Message.headText
    rw [last, List.flatMap_append, List.flatMap_singleton, length, List.flatMap_append,
      List.flatMap_singleton, ← List.append_assoc, ← last]
  · rcases List.eq_nil_or_concat (displayed.dropLast.flatMap (msg.printed form)) with
      none | ⟨others, entry, split⟩
    · intro item final
      rw [none, List.flatMap_nil, List.append_nil, List.getLast?_append] at final
      exact (Option.some.inj final).symm
    · rw [split, List.concat_eq_append, List.flatMap_append, List.flatMap_singleton,
        ← List.append_assoc]
      exact lineText_ends _ entry

/-- The lines of the head, from the first one that is not blank. -/
def headTexts (form : FormUrlencoded) (msg : Message) : List Text :=
  (lines '\n' (msg.headText form)).dropWhile blankLine

theorem lengthLine_named (msg : Message) : LineName (lengthEntry msg).1 :=
  name_plain .contentLength (by decide)

theorem lengthLine (msg : Message) : lineOf (lineText (lengthEntry msg)) =
    some ⟨Header.name .contentLength, digits (byteLength (msg.body.getD []))⟩ := by
  have bare : Bare whitespace (digits (byteLength (msg.body.getD []))) := by
    rw [← signed_natCast]
    exact bare_signed _
  unfold lineOf
  rw [trim_lineText (lengthLine_named msg)]
  show some (Line.mk (lengthEntry msg).1 (trim whitespace _)) = _
  rw [trim_value]
  exact congrArg (fun value => some (Line.mk _ value)) (trim_bare bare)

theorem lengthLine_solid (msg : Message) : blankLine (lineText (lengthEntry msg)) = false := by
  cases blank : blankLine (lineText (lengthEntry msg)) with
  | false => rfl
  | true =>
    have line := lengthLine msg
    unfold lineOf at line
    rw [List.isEmpty_iff.mp blank] at line
    cases line

theorem headTexts_split (msg : Message) : ∃ before : List Text,
    headTexts form msg = before ++ [lineText (lengthEntry msg)] := by
  obtain ⟨front, split, ended⟩ := @headText_split form msg
  have single : lines '\n' (lineText (lengthEntry msg)) = [lineText (lengthEntry msg)] := by
    have one := lines_printed [lengthEntry msg] (fun entry member => by
      obtain rfl := List.mem_singleton.mp member
      exact ⟨(lengthLine_named msg).2.1, not_mem_digits _ (by decide)⟩) []
    simpa [lines] using one
  refine ⟨(lines '\n' front).dropWhile blankLine, ?_⟩
  unfold headTexts
  rw [split, lines_ended _ ended, single, List.dropWhile_append]
  split
  · rename_i all
    rw [List.isEmpty_iff.mp all, List.dropWhile_cons_of_neg (by simp [lengthLine_solid])]
    rfl
  · rfl

/-- The lines of a printed message and of what follows it. -/
theorem lines_toText (msg : Message) (rest : Text) :
    (lines '\n' (msg.toText form ++ rest)).dropWhile blankLine =
      headTexts form msg ++ "\r\n".toList :: lines '\n' (msg.body.getD [] ++ rest) := by
  obtain ⟨front, split, ended⟩ := @headText_split form msg
  have whole : msg.toText form ++ rest =
      msg.headText form ++ (['\r'] ++ '\n' :: (msg.body.getD [] ++ rest)) := by
    simp [Message.toText, Message.headText]
  have blank : lines '\n' (['\r'] ++ '\n' :: (msg.body.getD [] ++ rest)) =
      "\r\n".toList :: lines '\n' (msg.body.getD [] ++ rest) :=
    lines_append ['\r'] _ (by decide)
  obtain ⟨before, shape⟩ := @headTexts_split form msg
  rw [whole, lines_ended _ (by rw [split]; exact lineText_ends front _), blank,
    List.dropWhile_append]
  split
  · rename_i all
    have none : headTexts form msg = [] := List.isEmpty_iff.mp all
    rw [shape] at none
    simp at none
  · rfl

end Heads

section Bodies

theorem takeBytes_start {n : Nat} {s body : Text} (taken : takeBytes n s = some body) :
    s = body ++ s.drop body.length := by
  induction s generalizing n body with
  | nil =>
    cases n with
    | zero => obtain rfl := Option.some.inj taken; rfl
    | succ n => obtain rfl := Option.some.inj taken; rfl
  | cons c s ih =>
    cases n with
    | zero => obtain rfl := Option.some.inj taken; rfl
    | succ n =>
      unfold takeBytes at taken
      split at taken
      · obtain ⟨rest, found, rfl⟩ := Option.map_eq_some_iff.mp taken
        rw [List.length_cons, List.drop_succ_cons, List.cons_append, ← ih found]
      · cases taken

/-- The body and what is left make up what followed the header. -/
theorem readBody_split {length : Int32} {texts : List Text} {body : Option Text}
    (read : readBody length texts = some body) :
    texts.flatten = body.getD [] ++ texts.flatten.drop (body.getD []).length := by
  unfold readBody at read
  split at read
  · obtain ⟨text, taken, rfl⟩ := Option.map_eq_some_iff.mp read
    exact takeBytes_start taken
  · obtain rfl := Option.some.inj read
    rfl

theorem byteLength_pos {body : Text} (written : body ≠ []) : 0 < byteLength body := by
  cases body with
  | nil => exact absurd rfl written
  | cons c body =>
    have positive := c.utf8Size_pos
    simp only [byteLength, List.map_cons, List.sum_cons]
    omega

/-- What the printed length is read as. -/
theorem readInt32_digits (n : Nat) : readInt32 (digits n) =
    if n ≤ 2147483647 then some (Int32.ofInt n) else none := by
  rw [← signed_natCast]
  unfold readInt32
  rw [integer_signed, Option.bind_some]
  by_cases fits : n ≤ 2147483647
  · rw [if_pos (by omega), if_pos fits]
  · rw [if_neg (by omega), if_neg fits]

theorem toInt_ofInt_small {n : Nat} (fits : n ≤ 2147483647) : (Int32.ofInt n).toInt = n :=
  Int32.toInt_ofInt_of_le (by omega) (by omega)

/-- The length that is left in the field is that of the last line. -/
theorem length_last {texts : List Text} {start fields : Fields} {msg : Message} {before : List Text}
    (split : texts = before ++ [lineText (lengthEntry msg)])
    (solid : ∀ text ∈ texts, blankLine text = false)
    (read : LineRecord.readLines Line.header (readHeader form) start (headerLines texts) =
      some fields) :
    (fields .contentLength : Int32) =
      (readInt32 (digits (byteLength (msg.body.getD [])))).getD 0 := by
  have taken : texts.takeWhile (fun text => !blankLine text) = texts :=
    List.takeWhile_eq_self_iff.mpr fun text member => by simp [solid text member]
  have last : headerLines texts = before.filterMap lineOf ++
      [⟨Header.name .contentLength, digits (byteLength (msg.body.getD []))⟩] := by
    unfold headerLines
    rw [taken, split, List.filterMap_append]
    simp [lengthLine]
  rw [last] at read
  have named : Line.header ⟨Header.name .contentLength,
      digits (byteLength (msg.body.getD []))⟩ = .contentLength := by
    show headerNamed (Header.name .contentLength) = .contentLength
    decide
  obtain ⟨old, made⟩ := LineRecord.readLines_last named read
  exact (Option.some.inj made).symm

end Bodies

section Framing

/-- The printed head is read to its end, and the length printed last is that of a body. -/
structure Message.Framed (form : FormUrlencoded) (msg : Message) : Prop where
  start : (readStart form (trim whitespace ((headTexts form msg).headD []))).isSome
  solid : ∀ text ∈ (headTexts form msg).tail, blankLine text = false
  whole : ∀ line ∈ headerLines (headTexts form msg).tail, line.Whole
  written : msg.body ≠ some []
  fits : byteLength (msg.body.getD []) ≤ 2147483647

theorem readStart_lengthLine (msg : Message) :
    readStart form (trim whitespace (lineText (lengthEntry msg))) = none := by
  have bare := bare_signed (byteLength (msg.body.getD []) : Int)
  rw [signed_natCast] at bare
  have text : Bare whitespace ("Content-Length:".toList ++ ' ' :: digits (byteLength (msg.body.getD []))) := by
    refine ⟨fun c first => ?_, fun c last => bare.2 c ?_⟩
    · obtain rfl : 'C' = c := by simpa using first
      decide
    · obtain ⟨head, tail, shape, _⟩ := digits_cons (byteLength (msg.body.getD []))
      rw [shape] at last ⊢
      simpa [List.getLast?_append, List.getLast?_cons] using last
  have trimmed : trim whitespace (lineText (lengthEntry msg)) =
      "Content-Length:".toList ++ ' ' :: digits (byteLength (msg.body.getD [])) := by
    have shape : lineText (lengthEntry msg) =
        ("Content-Length:".toList ++ ' ' :: digits (byteLength (msg.body.getD []))) ++
          "\r\n".toList := by
      unfold lineText lengthEntry
      rw [List.append_assoc, List.append_assoc, List.append_assoc]
      rfl
    rw [shape, trim_blanks _ (by decide), trim_bare text]
  have first : cut ' ' ("Content-Length:".toList ++ ' ' :: digits (byteLength (msg.body.getD []))) =
      ("Content-Length:".toList, some (digits (byteLength (msg.body.getD [])))) :=
    cut_join _ (some _) (by decide)
  have second : cut ' ' (digits (byteLength (msg.body.getD []))) =
      (digits (byteLength (msg.body.getD [])), none) := by
    have alone := cut_join (digits (byteLength (msg.body.getD []))) none
      (@not_mem_digits ' ' (byteLength (msg.body.getD [])) (by decide))
    rwa [join_none] at alone
  unfold readStart threeParts
  rw [trimmed, first, Option.bind_some, second]
  rfl

/-- A head with a start line has the length line after it. -/
theorem headTexts_cons {msg : Message}
    (start : (readStart form (trim whitespace ((headTexts form msg).headD []))).isSome) :
    ∃ first before, headTexts form msg = first :: (before ++ [lineText (lengthEntry msg)]) := by
  obtain ⟨before, split⟩ := @headTexts_split form msg
  cases before with
  | cons first before => exact ⟨first, before, split⟩
  | nil =>
    rw [split, List.nil_append, List.headD_cons, readStart_lengthLine] at start
    cases start

theorem headerLines_blank (texts : List Text) {blank : Text} (white : blankLine blank = true)
    (more : List Text) : headerLines (texts ++ blank :: more) = headerLines texts := by
  unfold headerLines
  congr 1
  induction texts with
  | nil => simp [white]
  | cons text texts ih =>
    rw [List.cons_append, List.takeWhile_cons, List.takeWhile_cons, ih]

/-- The header ends at the blank line, or before it where there is one before. -/
theorem afterHeader_blank (texts : List Text) {blank : Text} (white : blankLine blank = true)
    (more : List Text) :
    ((∀ text ∈ texts, blankLine text = false) ∧ afterHeader (texts ++ blank :: more) = more) ∨
      ((¬∀ text ∈ texts, blankLine text = false) ∧
        ∃ post, afterHeader (texts ++ blank :: more) = post ++ blank :: more) := by
  induction texts with
  | nil => exact Or.inl ⟨by simp, by simp [afterHeader, white]⟩
  | cons text texts ih =>
    cases known : blankLine text with
    | true =>
      refine Or.inr ⟨fun all => ?_, texts, by simp [afterHeader, known]⟩
      rw [all text List.mem_cons_self] at known
      cases known
    | false =>
      have step : afterHeader (text :: texts ++ blank :: more) =
          afterHeader (texts ++ blank :: more) := by simp [afterHeader, known]
      rw [step, List.forall_mem_cons]
      rcases ih with ⟨solid, after⟩ | ⟨broken, after⟩
      · exact Or.inl ⟨⟨known, solid⟩, after⟩
      · exact Or.inr ⟨fun both => broken both.2, after⟩

theorem readMessage_ok {line rest : Text} {texts : List Text} {body : Option Text} :
    (readMessage form line texts).map bodyRead = .ok (body, rest) ↔
      (readStart form (trim whitespace line)).isSome ∧
        ∃ fields, LineRecord.readLines Line.header (readHeader form) Fields.default
            (headerLines texts) = some fields ∧
          readBody (fields .contentLength) (afterHeader texts) = some body ∧
            (afterHeader texts).flatten.drop (body.getD []).length = rest := by
  unfold readMessage
  rw [readFields_eq]
  cases readStart form (trim whitespace line) with
  | none => simp [Outcome.map]
  | some start =>
    cases LineRecord.readLines Line.header (readHeader form) Fields.default
        (headerLines texts) with
    | none => simp [Outcome.map]
    | some fields =>
      simp only [Option.map_some, Option.isSome_some, true_and, Option.some_inj, exists_eq_left']
      cases readBody (fields .contentLength) (afterHeader texts) with
      | none => simp [Outcome.map]
      | some found =>
        simp only [Outcome.map, bodyRead, Outcome.ok.injEq, Prod.mk.injEq, Option.some_inj]
        constructor
        · rintro ⟨rfl, rfl⟩
          exact ⟨rfl, rfl⟩
        · rintro ⟨rfl, rfl⟩
          exact ⟨rfl, rfl⟩

theorem readLines_isSome (fields : Fields) (texts : List Text) :
    (LineRecord.readLines Line.header (readHeader form) fields (headerLines texts)).isSome ↔
      ∀ line ∈ headerLines texts, line.Whole := by
  rw [← @readFields_isSome form fields texts, readFields_eq, Option.isSome_map]

/-- One call, on a message and whatever follows it. -/
theorem asyncParse_framed (msg : Message) (rest : Text) :
    (Message.asyncParse form (msg.toText form ++ rest)).map bodyRead = .ok (msg.body, rest) ↔
      msg.Framed form := by
  have white : blankLine "\r\n".toList = true := by decide
  have called : ∀ first before, headTexts form msg = first :: before →
      Message.asyncParse form (msg.toText form ++ rest) = readMessage form first
        (before ++ "\r\n".toList :: lines '\n' (msg.body.getD [] ++ rest)) := by
    intro first before shape
    unfold Message.asyncParse
    rw [lines_toText, shape]
    rfl
  constructor
  · intro taken
    obtain ⟨first, before, shape⟩ : ∃ first before, headTexts form msg = first :: before := by
      obtain ⟨before, split⟩ := @headTexts_split form msg
      cases before with
      | nil => exact ⟨_, [], split⟩
      | cons first before => exact ⟨first, _, split⟩
    rw [called first before shape] at taken
    obtain ⟨start, fields, read, body, left⟩ := readMessage_ok.mp taken
    rw [headerLines_blank _ white] at read
    have whole := (@readLines_isSome form Fields.default before).mp
      (by rw [read]; rfl)
    have known : (readStart form (trim whitespace ((headTexts form msg).headD []))).isSome := by
      rw [shape]
      exact start
    obtain ⟨other, front, split⟩ := headTexts_cons known
    rw [shape] at split
    obtain ⟨rfl, rfl⟩ := List.cons.inj split
    have parts := readBody_split body
    rw [left] at parts
    rcases afterHeader_blank (front ++ [lineText (lengthEntry msg)]) white
        (lines '\n' (msg.body.getD [] ++ rest)) with ⟨solid, after⟩ | ⟨_, post, after⟩
    · rw [after] at body
      have length := length_last rfl solid read
      rw [readInt32_digits] at length
      refine ⟨known, by rw [shape]; exact solid, by rw [shape]; exact whole, ?_, ?_⟩
      · intro empty
        rw [empty, Option.getD_some] at length
        have zero : (fields .contentLength : Int32) = 0 := by rw [length]; decide
        rw [zero] at body
        rw [empty] at body
        cases body
      · by_contra long
        rw [if_neg long, Option.getD_none] at length
        rw [length] at body
        have none : msg.body = none := (Option.some.inj body).symm
        rw [none] at long
        exact long (by decide)
    · rw [after, List.flatten_append, List.flatten_cons, lines_flatten] at parts
      have long := congrArg List.length parts
      simp only [List.length_append] at long
      have two : "\r\n".toList.length = 2 := by decide
      omega
  · intro framed
    obtain ⟨first, before, shape⟩ := headTexts_cons framed.start
    have solid := framed.solid
    have whole := framed.whole
    have start := framed.start
    rw [shape] at solid whole start
    rw [List.tail_cons] at solid whole
    rw [called first _ shape]
    obtain ⟨fields, read⟩ := Option.isSome_iff_exists.mp
      ((@readLines_isSome form Fields.default _).mpr whole)
    have length := length_last rfl solid read
    rw [readInt32_digits, if_pos framed.fits, Option.getD_some] at length
    have after : afterHeader ((before ++ [lineText (lengthEntry msg)]) ++
        "\r\n".toList :: lines '\n' (msg.body.getD [] ++ rest)) =
          lines '\n' (msg.body.getD [] ++ rest) := by
      rcases afterHeader_blank (before ++ [lineText (lengthEntry msg)]) white
        (lines '\n' (msg.body.getD [] ++ rest)) with ⟨_, after⟩ | ⟨broken, _⟩
      · exact after
      · exact absurd solid broken
    refine readMessage_ok.mpr ⟨start, fields, ?_, ?_, ?_⟩
    · rw [headerLines_blank _ white]
      exact read
    · rw [after]
      unfold readBody
      rw [length, toInt_ofInt_small framed.fits, lines_flatten, Int.toNat_natCast]
      cases body : msg.body with
      | none => rfl
      | some text =>
        have written : text ≠ [] := fun empty => framed.written (by rw [body, empty])
        have positive := byteLength_pos written
        rw [Option.getD_some, if_pos (by omega), takeBytes_front]
        rfl
    · rw [after, lines_flatten, List.drop_left]

end Framing

section Calls

theorem asyncParse_keepAlives (count : Nat) (stream : Text) :
    Message.asyncParse form (keepAlives count ++ stream) = Message.asyncParse form stream := by
  induction count with
  | zero => rfl
  | succ count ih =>
    have shape : keepAlives (count + 1) ++ stream =
        ['\r'] ++ '\n' :: (keepAlives count ++ stream) := by
      unfold keepAlives
      rw [List.replicate_succ, List.flatten_cons, List.append_assoc]
      rfl
    have split : lines '\n' (['\r'] ++ '\n' :: (keepAlives count ++ stream)) =
        "\r\n".toList :: lines '\n' (keepAlives count ++ stream) :=
      lines_append ['\r'] _ (by decide)
    have white : blankLine "\r\n".toList = true := by decide
    rw [← ih, shape]
    unfold Message.asyncParse
    rw [split, List.dropWhile_cons_of_pos white]

/-- At the end of the stream the call fails, keep-alives or not. -/
theorem asyncParse_end (tail : Nat) :
    Message.asyncParse form (keepAlives tail) = .error .connectionEof := by
  have same := @asyncParse_keepAlives form tail []
  rw [List.append_nil] at same
  rw [same]
  rfl

theorem bodyRead_ok {outcome : Outcome (Message × Text)} {body : Option Text} {rest : Text}
    (taken : outcome.map bodyRead = .ok (body, rest)) :
    ∃ msg, outcome = .ok (msg, rest) ∧ msg.body = body := by
  cases outcome with
  | error reason => cases taken
  | panic => cases taken
  | ok read =>
    obtain ⟨msg, left⟩ := read
    obtain ⟨same, rfl⟩ := Prod.mk.inj (Outcome.ok.inj taken)
    exact ⟨msg, rfl, same⟩

theorem calls_ok {count : Nat} {stream rest : Text} {msg : Message}
    (taken : Message.asyncParse form stream = .ok (msg, rest)) :
    calls form (count + 1) stream = .ok (msg, rest) :: calls form count rest := by
  conv_lhs => unfold calls
  rw [taken]

theorem calls_head (count : Nat) (stream : Text) :
    (calls form (count + 1) stream).head? = some (Message.asyncParse form stream) := by
  unfold calls
  cases Message.asyncParse form stream with
  | ok read => rfl
  | error reason => rfl
  | panic => rfl

/-- From a stream of printed messages and keep-alives the calls take exactly the messages,
    one each and with their bodies, and then find its end, if and only if each message
    is framed. -/
theorem stream_framing (form : FormUrlencoded) (items : List (Nat × Message)) (tail : Nat) :
    (calls form (items.length + 1) (streamText form items tail)).map (Outcome.map bodyRead) =
        callsExpected form items tail ↔
      ∀ item ∈ items, item.2.Framed form := by
  induction items with
  | nil =>
    refine iff_of_true ?_ (by simp)
    show (calls form 1 (keepAlives tail)).map _ = [Outcome.error .connectionEof]
    unfold calls
    rw [asyncParse_end]
    rfl
  | cons item items ih =>
    obtain ⟨gap, msg⟩ := item
    have first : Message.asyncParse form (streamText form ((gap, msg) :: items) tail) =
        Message.asyncParse form (msg.toText form ++ streamText form items tail) :=
      asyncParse_keepAlives gap _
    rw [List.forall_mem_cons, ← ih, ← asyncParse_framed msg (streamText form items tail), ← first]
    constructor
    · intro same
      have head := congrArg List.head? same
      rw [List.head?_map, List.length_cons, calls_head] at head
      have taken := Option.some.inj head
      obtain ⟨next, found, _⟩ := bodyRead_ok taken
      rw [List.length_cons, calls_ok found] at same
      exact ⟨taken, (List.cons.inj same).2⟩
    · rintro ⟨taken, later⟩
      obtain ⟨next, found, body⟩ := bodyRead_ok taken
      rw [List.length_cons, calls_ok found, List.map_cons, later, ← found, taken]
      rfl

end Calls

section Plain

/-- Nothing that is printed in the head holds a line break of its own. -/
structure Message.Unbroken (form : FormUrlencoded) (msg : Message) : Prop where
  start : '\n' ∉ msg.startText form
  names : ∀ header ∈ displayed, ∀ entry ∈ msg.printed form header, '\n' ∉ entry.1
  values : ∀ header ∈ displayed, ∀ entry ∈ msg.printed form header, '\n' ∉ entry.2

theorem startText_solid (msg : Message) : ∃ c ∈ msg.startText form, whitespace c = false := by
  unfold Message.startText
  split
  · refine ⟨'S', ?_, by decide⟩
    exact List.mem_append_right _ (List.mem_cons_of_mem _ (List.mem_append_right _ (by decide)))
  · refine ⟨'S', ?_, by decide⟩
    rw [List.append_assoc]
    exact List.mem_append_left _ (by decide)

theorem headTexts_unbroken {msg : Message} (plain : msg.Unbroken form) :
    headTexts form msg = (msg.startText form ++ "\r\n".toList) ::
      (displayed.flatMap (msg.printed form)).map lineText := by
  have whole : ∀ entry ∈ displayed.flatMap (msg.printed form), '\n' ∉ entry.1 ∧ '\n' ∉ entry.2 := by
    intro entry member
    obtain ⟨header, shown, known⟩ := List.mem_flatMap.mp member
    exact ⟨plain.names header shown entry known, plain.values header shown entry known⟩
  have shape : msg.headText form = (msg.startText form ++ ['\r']) ++ '\n' ::
      ((displayed.flatMap (msg.printed form)).flatMap lineText ++ []) := by
    simp [Message.headText]
  have first : '\n' ∉ msg.startText form ++ ['\r'] := by simp [plain.start]
  obtain ⟨c, member, solid⟩ := @startText_solid form msg
  have visible : blankLine (msg.startText form ++ ['\r'] ++ ['\n']) = false :=
    blankLine_solid (List.mem_append_left _ (List.mem_append_left _ member)) solid
  have none : lines '\n' ([] : Text) = [] := rfl
  unfold headTexts
  rw [shape, lines_append _ _ first, lines_printed _ whole, none, List.append_nil,
    List.dropWhile_cons_of_neg (Bool.eq_false_iff.mp visible)]
  simp

/-- Of a message without line breaks in its head, the start line and the digests decide,
    and the body. -/
theorem framed_iff {msg : Message} (plain : msg.Unbroken form) :
    msg.Framed form ↔
      (readStart form (trim whitespace (msg.startText form))).isSome ∧
        (∀ entry ∈ displayed.flatMap (msg.printed form), ∀ line ∈ lineOf (lineText entry),
          line.Whole) ∧ msg.body ≠ some [] ∧ byteLength (msg.body.getD []) ≤ 2147483647 := by
  have shape := headTexts_unbroken plain
  have start : trim whitespace ((headTexts form msg).headD []) =
      trim whitespace (msg.startText form) := by
    rw [shape, List.headD_cons, trim_blanks _ (by decide)]
  have solid : ∀ text ∈ (headTexts form msg).tail, blankLine text = false := by
    rw [shape, List.tail_cons, List.forall_mem_map]
    exact fun entry _ => lineText_solid entry
  have found : headerLines (headTexts form msg).tail =
      (displayed.flatMap (msg.printed form)).filterMap fun entry => lineOf (lineText entry) := by
    unfold headerLines
    rw [List.takeWhile_eq_self_iff.mpr fun text member => by simp [solid text member], shape,
      List.tail_cons, List.filterMap_map]
    rfl
  have whole : (∀ line ∈ headerLines (headTexts form msg).tail, line.Whole) ↔
      ∀ entry ∈ displayed.flatMap (msg.printed form), ∀ line ∈ lineOf (lineText entry),
        line.Whole := by
    rw [found]
    constructor
    · exact fun all entry member line there =>
        all line (List.mem_filterMap.mpr ⟨entry, member, there⟩)
    · intro all line member
      obtain ⟨entry, inside, there⟩ := List.mem_filterMap.mp member
      exact all entry inside line there
  rw [← whole, ← start]
  exact ⟨fun framed => ⟨framed.start, framed.whole, framed.written, framed.fits⟩,
    fun all => ⟨all.1, solid, all.2.1, all.2.2.1, all.2.2.2⟩⟩

/-- A response without a reason phrase: the space before the phrase is trimmed away. -/
def unexplained : Message := { code := some 200, status := some [] }

theorem unexplained_unframed : ¬∀ (form : FormUrlencoded) (items : List (Nat × Message)) (tail : Nat),
    (∀ item ∈ items, ∀ header ∈ displayed, ∀ entry ∈ item.2.printed form header,
        '\r' ∉ entry.2 ∧ '\n' ∉ entry.2) →
      (calls form (items.length + 1) (streamText form items tail)).map (Outcome.map bodyRead) =
        callsExpected form items tail := by
  intro all
  have values : ∀ header ∈ displayed, ∀ entry ∈ unexplained.printed unaryForm header,
      '\r' ∉ entry.2 ∧ '\n' ∉ entry.2 := by decide +kernel
  have plain : unexplained.Unbroken unaryForm :=
    ⟨by decide +kernel, by decide +kernel, fun header shown entry member =>
      (values header shown entry member).2⟩
  have refused : (readStart unaryForm (trim whitespace (unexplained.startText unaryForm))).isSome =
      false := by decide +kernel
  have taken := congrArg List.head? (all unaryForm [(0, unexplained)] 0 fun item member => by
    obtain rfl := List.mem_singleton.mp member
    exact values)
  rw [List.head?_map, List.length_singleton, calls_head] at taken
  have framed := (asyncParse_framed unexplained []).mp (Option.some.inj taken)
  have start := ((framed_iff plain).mp framed).1
  rw [refused] at start
  cases start

end Plain

end SipText
