import Nebula.Sdp.Totality

/- Which c= line the connection address of a session description is read from, and the media
   sections that the address is used for. -/
namespace Sdp
open TextScan TextParts
open SipText (Text byteLength)

section Marks

/-- What a line does for connections: it starts a section, which is read or passed over, or it
    gives an address. -/
inductive Mark where
  | media (read : Bool)
  | connection (addr : Text)
  deriving DecidableEq

def Mark.isMedia : Mark → Bool
  | media _ => true
  | connection _ => false

def markOfData (descType : Char) (data : Text) : Option Mark :=
  match descType.toLower with
  | 'm' => some (.media (parseMedia data).toOption.isSome)
  | 'c' => match data.splitOn ' ' with | [_, _, addr] => some (.connection addr) | _ => none
  | _ => none

def markOf (line : Text) : Option Mark := itemOf markOfData line

def marks (s : Text) : List Mark := (splitPair '\r' '\n' s).filterMap markOf

/-- The last address that is given, with the marks before it. -/
def lastConnection : List Mark → Option (List Mark × Text)
  | [] => none
  | .media read :: rest =>
    (lastConnection rest).map fun last => (.media read :: last.1, last.2)
  | .connection addr :: rest =>
    some ((lastConnection rest).elim ([], addr) fun last => (.connection addr :: last.1, last.2))

def lastAddr (list : List Mark) : Option Text := (lastConnection list).map Prod.snd

/-- The address of the session-level c= line. -/
def sessionAddr (list : List Mark) : Option Text :=
  lastAddr (list.takeWhile fun mark => !mark.isMedia)

def reads (list : List Mark) : ℕ := list.count (.media true)

/-- The description that a line behind these marks belongs to; none in a section that was
    passed over. -/
def ownSection (front : List Mark) : Option ℕ :=
  match front.reverse.find? Mark.isMedia with
  | some (.media true) => some (reads front - 1)
  | _ => none

/-- Where a media section is sent to: the connection address with the port of the section. -/
def SessionDescription.mediaAddr (sdp : SessionDescription) (k : ℕ) : Option (Text × UInt16) :=
  sdp.mediaDescriptions[k]?.map fun media => (sdp.connection.addr, media.port)

/-- The session-level address is kept, and no c= line of a media section makes a difference to
    the address of another: without the line it is the same. -/
structure ConnectionScoped (s : Text) (sdp : SessionDescription) : Prop where
  session : ∀ addr ∈ sessionAddr (marks s), sdp.connection.addr = addr
  media : ∀ (before after : List Text) (line addr : Text),
    splitPair '\r' '\n' s = before ++ line :: after →
    markOf line = some (.connection addr) →
    (before.filterMap markOf).any Mark.isMedia →
    ∀ (without : Text) (other : SessionDescription),
      splitPair '\r' '\n' without = before ++ after →
      SessionDescription.fromStr without = .ok other →
      ∀ k, ownSection (before.filterMap markOf) ≠ some k → other.mediaAddr k = sdp.mediaAddr k

/-- The last c= line, where a media section holds it, repeats the session-level address, and, if
    there is another section, the address before it. -/
def LastRepeats (list : List Mark) : Prop :=
  ∀ last ∈ lastConnection list, last.1.any Mark.isMedia →
    (∀ addr ∈ sessionAddr list, last.2 = addr) ∧
      ((∃ k < reads list, ownSection last.1 ≠ some k) → last.2 = (lastAddr last.1).getD [])

instance decidableLastRepeats (list : List Mark) : Decidable (LastRepeats list) :=
  inferInstanceAs (Decidable (∀ last ∈ lastConnection list, _))

end Marks

section Scanning

/-- The address and the number of descriptions, which are all that marks change. -/
abbrev Scope := Text × ℕ

def SessionDescription.scope (sdp : SessionDescription) : Scope :=
  (sdp.connection.addr, sdp.mediaDescriptions.length)

def pass (scope : Scope) : Mark → Scope
  | .media read => (scope.1, if read then scope.2 + 1 else scope.2)
  | .connection addr => (addr, scope.2)

theorem addToLast_length (attr : Attribute) (medias : List MediaDescription) :
    (addToLast attr medias).length = medias.length := by
  fun_induction addToLast attr medias with
  | case1 => rfl
  | case2 media => rfl
  | case3 media next rest ih => rw [List.length_cons, ih]; rfl

theorem readData_passes {sdp next : SessionDescription} {descType : Char} {data : Text}
    (run : sdp.readData descType data = .ok next) :
    next.scope = (markOfData descType data).elim sdp.scope (pass sdp.scope) := by
  revert run
  unfold markOfData
  fun_cases SessionDescription.readData sdp descType data with
  | case1 kind => rw [kind]; rintro ⟨⟩; rfl
  | case2 kind => rw [kind]; rintro ⟨⟩; rfl
  | case3 kind =>
    rw [kind]
    cases Origin.fromStr data with
    | error fault => rintro ⟨⟩
    | ok origin => rintro ⟨⟩; rfl
  | case4 kind start stop parts =>
    rw [kind]
    cases DecimalText.readInt32 start with
    | none => rintro ⟨⟩
    | some timeStart =>
      cases DecimalText.readInt32 stop with
      | none => rintro ⟨⟩
      | some timeStop => rintro ⟨⟩; rfl
  | case5 kind other => rintro ⟨⟩
  | case6 kind media read =>
    simp only [kind, read]
    rintro ⟨⟩
    simp [SessionDescription.scope, pass, Except.toOption]
  | case7 kind fault read =>
    simp only [kind, read]
    rintro ⟨⟩
    rfl
  | case8 kind networkType addrType addr parts =>
    simp only [kind, parts]
    rintro ⟨⟩
    rfl
  | case9 kind other => rintro ⟨⟩
  | case10 kind => rw [kind]; rintro ⟨⟩; rfl
  | case11 kind later =>
    rw [kind]
    rintro ⟨⟩
    exact Prod.ext rfl (addToLast_length _ _)
  | case12 notV notS notO notT notM notC notA =>
    split
    · exact (notM (by assumption)).elim
    · exact (notC (by assumption)).elim
    · rintro ⟨⟩; rfl

theorem readLines_pass {sdp last : SessionDescription} {lines : List Text}
    (run : lines.foldlM SessionDescription.readLine sdp = .ok last) :
    last.scope = (lines.filterMap markOf).foldl pass sdp.scope :=
  readLines_view readData_passes run

theorem pass_addr (scope : Scope) (list : List Mark) :
    (list.foldl pass scope).1 = (lastAddr list).getD scope.1 := by
  induction list generalizing scope with
  | nil => rfl
  | cons mark list ih =>
    rw [List.foldl_cons, ih]
    cases mark <;> simp only [lastAddr, lastConnection] <;> cases lastConnection list <;> rfl

theorem pass_reads (scope : Scope) (list : List Mark) :
    (list.foldl pass scope).2 = scope.2 + reads list := by
  induction list generalizing scope with
  | nil => rfl
  | cons mark list ih =>
    rw [List.foldl_cons, ih, reads, reads, List.count_cons]
    match mark with
    | .media true => simp [pass]; omega
    | .media false => rfl
    | .connection addr => rfl

/-- The run keeps the last address, and a description of each section that is read. -/
theorem fromStr_scope {s : Text} {sdp : SessionDescription}
    (run : SessionDescription.fromStr s = .ok sdp) :
    sdp.connection.addr = (lastAddr (marks s)).getD [] ∧
      sdp.mediaDescriptions.length = reads (marks s) := by
  have scope := readLines_pass run
  have addr := (congrArg Prod.fst scope).trans (pass_addr _ _)
  have count := (congrArg Prod.snd scope).trans (pass_reads _ _)
  exact ⟨addr, count.trans (Nat.zero_add _)⟩

end Scanning

section Lasts

theorem lastConnection_append (front back : List Mark) :
    lastConnection (front ++ back) = (lastConnection back).elim (lastConnection front)
      fun last => some (front ++ last.1, last.2) := by
  induction front with
  | nil => rw [List.nil_append]; cases lastConnection back <;> rfl
  | cons mark front ih =>
    rw [List.cons_append]
    cases mark <;> rw [lastConnection, lastConnection, ih] <;> cases lastConnection back <;> rfl

theorem lastAddr_append (front back : List Mark) :
    lastAddr (front ++ back) = (lastAddr back).or (lastAddr front) := by
  rw [lastAddr, lastConnection_append, lastAddr, lastAddr]
  cases lastConnection back <;> rfl

theorem lastAddr_cons (addr : Text) (back : List Mark) :
    lastAddr (.connection addr :: back) = (lastAddr back).or (some addr) := by
  rw [lastAddr, lastConnection, lastAddr]
  cases lastConnection back <;> rfl

theorem lastConnection_around (front : List Mark) (addr : Text) {back : List Mark}
    (none_ : lastAddr back = none) :
    lastConnection (front ++ .connection addr :: back) = some (front, addr) := by
  rw [lastConnection_append, lastConnection, Option.map_eq_none_iff.mp none_]
  simp

/-- Behind the last address there are none. -/
theorem lastConnection_parts {list front : List Mark} {addr : Text}
    (last : lastConnection list = some (front, addr)) :
    ∃ back, list = front ++ .connection addr :: back ∧ lastAddr back = none := by
  induction list generalizing front with
  | nil => cases last
  | cons mark rest ih =>
    cases later : lastConnection rest with
    | some found =>
      have own : front = mark :: found.1 ∧ addr = found.2 := by
        cases mark <;> rw [lastConnection, later] at last <;> cases last <;> exact ⟨rfl, rfl⟩
      obtain ⟨rfl, rfl⟩ := own
      obtain ⟨back, shape, none_⟩ := ih later
      exact ⟨back, congrArg (mark :: ·) shape, none_⟩
    | none =>
      cases mark with
      | media read => rw [lastConnection, later] at last; cases last
      | connection own =>
        rw [lastConnection, later] at last
        obtain ⟨rfl, rfl⟩ := Prod.mk.inj (Option.some.inj last)
        exact ⟨rest, rfl, by rw [lastAddr, later]; rfl⟩

/-- An address before every section is the session-level one. -/
theorem sessionAddr_of_front {list front : List Mark} {addr : Text}
    (last : lastConnection list = some (front, addr))
    (session : ¬ front.any Mark.isMedia) : sessionAddr list = some addr := by
  obtain ⟨back, rfl, none_⟩ := lastConnection_parts last
  have early : ∀ mark ∈ front, !mark.isMedia := by simpa using session
  have later : lastAddr (back.takeWhile fun mark => !mark.isMedia) = none := by
    have both := lastAddr_append (back.takeWhile fun mark => !mark.isMedia)
      (back.dropWhile fun mark => !mark.isMedia)
    rw [List.takeWhile_append_dropWhile, none_] at both
    exact (Option.or_eq_none_iff.mp both.symm).2
  rw [sessionAddr, List.takeWhile_append_of_pos early, List.takeWhile_cons_of_pos rfl,
    List.append_cons, lastAddr_append, later, lastAddr_append]
  rfl

end Lasts

section Removal

/-- Lines without breaks are the lines of a text. -/
theorem lines_of_text {lines : List Text} (some_ : lines ≠ [])
    (whole : ∀ line ∈ lines, Unbroken '\r' '\n' line) :
    ∃ s, splitPair '\r' '\n' s = lines := by
  induction lines with
  | nil => exact absurd rfl some_
  | cons line lines ih =>
    have first := whole line List.mem_cons_self
    cases lines with
    | nil => exact ⟨line, splitPair_whole first⟩
    | cons next lines =>
      obtain ⟨s, parts⟩ := ih (List.cons_ne_nil _ _)
        fun other member => whole other (.tail _ member)
      exact ⟨line ++ '\r' :: '\n' :: s, by rw [splitPair_append s first (by decide), parts]⟩

theorem entryOf_connection {line addr : Text} (mark : markOf line = some (.connection addr)) :
    entryOf line = none := by
  unfold markOf itemOf at mark
  unfold entryOf
  split at mark
  · cases mark
  · obtain ⟨parts, found, own⟩ := Option.bind_eq_some_iff.mp mark
    rw [if_neg (by assumption), found]
    unfold markOfData at own
    split at own
    · cases own
    · rename_i letter
      rw [Option.bind_some, entryOfData, letter]
      rfl
    · cases own

/-- Without a c= line there are the same media sections. -/
theorem removed_medias {s without line addr : Text} {before after : List Text}
    {sdp other : SessionDescription} (lines : splitPair '\r' '\n' s = before ++ line :: after)
    (mark : markOf line = some (.connection addr))
    (rest : splitPair '\r' '\n' without = before ++ after)
    (run : SessionDescription.fromStr s = .ok sdp)
    (otherRun : SessionDescription.fromStr without = .ok other) :
    other.mediaDescriptions = sdp.mediaDescriptions := by
  have same : entries without = entries s := by
    rw [entries, entries, rest, lines, List.filterMap_append, List.filterMap_append,
      List.filterMap_cons_none (entryOf_connection mark)]
  have collected := fromStr_collects otherRun
  rw [same, ← fromStr_collects run] at collected
  exact congrArg Prod.snd collected

theorem marks_around {s line addr : Text} {before after : List Text}
    (lines : splitPair '\r' '\n' s = before ++ line :: after)
    (mark : markOf line = some (.connection addr)) :
    marks s = before.filterMap markOf ++ .connection addr :: after.filterMap markOf := by
  rw [marks, lines, List.filterMap_append, List.filterMap_cons_some mark]

/-- The line of an address, and the same text without it. -/
theorem remove_line {s : Text} {sdp : SessionDescription} {front back : List Mark} {addr : Text}
    (run : SessionDescription.fromStr s = .ok sdp)
    (shape : marks s = front ++ .connection addr :: back) (some_ : front ≠ []) :
    ∃ before line after, splitPair '\r' '\n' s = before ++ line :: after ∧
      markOf line = some (.connection addr) ∧ before.filterMap markOf = front ∧
      after.filterMap markOf = back ∧
      ∃ without other, splitPair '\r' '\n' without = before ++ after ∧
        SessionDescription.fromStr without = .ok other := by
  obtain ⟨before, behind, lines, front_, behind_⟩ := List.filterMap_eq_append_iff.mp shape
  obtain ⟨skipped, line, after, rfl, skips, mark, back_⟩ := List.filterMap_eq_cons_iff.mp behind_
  have front_' : (before ++ skipped).filterMap markOf = front := by
    rw [List.filterMap_append, front_, List.filterMap_eq_nil_iff.mpr skips, List.append_nil]
  rw [← List.append_assoc] at lines
  have still : (before ++ skipped) ++ after ⊆ splitPair '\r' '\n' s := by
    rw [lines]
    exact (List.Sublist.append_left (List.sublist_cons_self line after) _).subset
  have nonempty : (before ++ skipped) ++ after ≠ [] := by
    intro empty
    rw [(List.append_eq_nil_iff.mp empty).1] at front_'
    exact some_ front_'.symm
  obtain ⟨without, rest⟩ := lines_of_text nonempty fun other member =>
    splitPair_unbroken s other (still member)
  have good := (readLines_isOk {} (splitPair '\r' '\n' s)).mp ⟨sdp, run⟩
  obtain ⟨other, otherRun⟩ := (readLines_isOk {} ((before ++ skipped) ++ after)).mpr
    fun line member => good line (still member)
  rw [← rest] at otherRun
  exact ⟨_, line, after, lines, mark, front_', back_, without, other, rest, otherRun⟩

end Removal

section Scope

theorem lastRepeats_of_scoped {s : Text} {sdp : SessionDescription}
    (run : SessionDescription.fromStr s = .ok sdp) (own : ConnectionScoped s sdp) :
    LastRepeats (marks s) := by
  rintro ⟨front, addr⟩ last inside
  obtain ⟨kept, count⟩ := fromStr_scope run
  obtain ⟨back, shape, none_⟩ := lastConnection_parts last
  rw [lastAddr, last, Option.map_some, Option.getD_some] at kept
  refine ⟨fun session found => kept.symm.trans (own.session session found), ?_⟩
  rintro ⟨k, short, foreign⟩
  have some_ : front ≠ [] := by
    rintro rfl
    cases inside
  obtain ⟨before, line, after, lines, mark, rfl, rfl, without, other, rest, otherRun⟩ :=
    remove_line run shape some_
  have same := own.media before after line addr lines mark inside without other rest otherRun
    k foreign
  have medias := removed_medias lines mark rest run otherRun
  have present : k < sdp.mediaDescriptions.length := count ▸ short
  have addrs : other.connection.addr = sdp.connection.addr := by
    rw [SessionDescription.mediaAddr, SessionDescription.mediaAddr, medias,
      List.getElem?_eq_getElem present] at same
    exact congrArg Prod.fst (Option.some.inj same)
  have otherKept := (fromStr_scope otherRun).1
  rw [marks, rest, List.filterMap_append, lastAddr_append, none_, Option.none_or] at otherKept
  exact kept.symm.trans (addrs.symm.trans otherKept)

theorem sessionAddr_kept {s addr : Text} {sdp : SessionDescription}
    (run : SessionDescription.fromStr s = .ok sdp) (repeats : LastRepeats (marks s))
    (session : sessionAddr (marks s) = some addr) : sdp.connection.addr = addr := by
  have kept := (fromStr_scope run).1
  cases last : lastConnection (marks s) with
  | none =>
    have both := lastAddr_append ((marks s).takeWhile fun mark => !mark.isMedia)
      ((marks s).dropWhile fun mark => !mark.isMedia)
    rw [List.takeWhile_append_dropWhile, lastAddr, last] at both
    exact absurd ((Option.or_eq_none_iff.mp both.symm).2.symm.trans session) (by simp)
  | some found =>
    rw [lastAddr, last, Option.map_some, Option.getD_some] at kept
    rw [kept]
    by_cases inside : found.1.any Mark.isMedia
    · exact (repeats found last inside).1 addr session
    · exact Option.some.inj ((sessionAddr_of_front last inside).symm.trans session)

theorem mediaAddr_kept {s without line addr : Text} {before after : List Text}
    {sdp other : SessionDescription} (run : SessionDescription.fromStr s = .ok sdp)
    (repeats : LastRepeats (marks s)) (lines : splitPair '\r' '\n' s = before ++ line :: after)
    (mark : markOf line = some (.connection addr))
    (inside : (before.filterMap markOf).any Mark.isMedia)
    (rest : splitPair '\r' '\n' without = before ++ after)
    (otherRun : SessionDescription.fromStr without = .ok other) {k : ℕ}
    (foreign : ownSection (before.filterMap markOf) ≠ some k) :
    other.mediaAddr k = sdp.mediaAddr k := by
  obtain ⟨kept, count⟩ := fromStr_scope run
  have otherKept := (fromStr_scope otherRun).1
  have around := marks_around lines mark
  rw [marks, rest, List.filterMap_append, lastAddr_append] at otherKept
  rw [SessionDescription.mediaAddr, SessionDescription.mediaAddr,
    removed_medias lines mark rest run otherRun]
  by_cases short : k < sdp.mediaDescriptions.length
  · have addrs : other.connection.addr = sdp.connection.addr := by
      rw [otherKept, kept, around, lastAddr_append (before.filterMap markOf), lastAddr_cons]
      cases later : lastAddr (after.filterMap markOf) with
      | some behind => rfl
      | none =>
        have last := lastConnection_around (before.filterMap markOf) addr later
        rw [← around] at last
        exact ((repeats _ last inside).2 ⟨k, count ▸ short, foreign⟩).symm
    rw [addrs]
  · rw [List.getElem?_eq_none (Nat.not_lt.mp short)]
    rfl

/-- The address that is kept is right for all sections exactly where the last c= line repeats
    those that it writes on top of. -/
theorem connectionScoped_iff {s : Text} {sdp : SessionDescription}
    (run : SessionDescription.fromStr s = .ok sdp) :
    ConnectionScoped s sdp ↔ LastRepeats (marks s) := by
  constructor
  · exact lastRepeats_of_scoped run
  · intro repeats
    constructor
    · intro addr session
      exact sessionAddr_kept run repeats session
    · intro before after line addr lines mark inside without other rest otherRun k foreign
      exact mediaAddr_kept run repeats lines mark inside rest otherRun foreign

/-- Both c= lines of the sections repeat the address of the session. -/
def sameAddress : Text :=
  "c=IN IP4 1.1.1.1\r\nm=audio 4000 RTP/AVP 0\r\nc=IN IP4 1.1.1.1\r\nm=video 4002 RTP/AVP 96\r\nc=IN IP4 1.1.1.1".toList

theorem connectionScoped_iff_same : ∃ sdp, SessionDescription.fromStr sameAddress = .ok sdp ∧
    ConnectionScoped sameAddress sdp := by
  have good : (SessionDescription.fromStr sameAddress).toOption.isSome := by decide +kernel
  cases found : SessionDescription.fromStr sameAddress with
  | error fault => rw [found] at good; cases good
  | ok sdp => exact ⟨sdp, rfl, (connectionScoped_iff found).mpr (by decide +kernel)⟩

/-- The address of the video is kept for the session, and used for the audio. -/
def videoAddress : Text :=
  "v=0\r\nc=IN IP4 1.1.1.1\r\nm=audio 4000 RTP/AVP 0\r\nm=video 4002 RTP/AVP 96\r\nc=IN IP4 2.2.2.2\r\n".toList

theorem video_address_replaces :
    ¬ ∀ s sdp, SessionDescription.fromStr s = .ok sdp → ConnectionScoped s sdp := by
  intro kept
  have run : (SessionDescription.fromStr videoAddress).toOption.any fun sdp =>
      sessionAddr (marks videoAddress) = some "1.1.1.1".toList &&
        sdp.connection.addr = "2.2.2.2".toList := by decide +kernel
  cases found : SessionDescription.fromStr videoAddress with
  | error fault => rw [found] at run; cases run
  | ok sdp =>
    rw [found, Except.toOption, Option.any_some, Bool.and_eq_true, decide_eq_true_eq,
      decide_eq_true_eq] at run
    have same := (kept videoAddress sdp found).session _ run.1
    rw [run.2] at same
    exact absurd same (by decide)

end Scope

end Sdp
