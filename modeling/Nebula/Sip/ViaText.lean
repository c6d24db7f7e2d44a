import Nebula.Sip.UriRoundTrip

/- The entries of Via headers as texts. An entry is read as a URI without its scheme,
   and what it prints is the text of such a URI. -/
namespace SipText
open Sip (TransportType)
open TextScan DecimalText

variable {form : FormUrlencoded}

structure Via where
  transport : TransportType := .Udp
  host : Text := []
  port : Option UInt16 := none
  branch : Text := []
  received : Option Text := none
  rport : Option UInt16 := none
  params : IndexMap Text (Option Text) := .empty
  deriving DecidableEq

section Reading

def viaTransport (proto : Text) : Option TransportType :=
  match proto.splitOn '/' with
  | [_, _, transport] => transportFromStr (lowercase transport)
  | _ => none

def Via.setParam (via : Via) (entry : Text × Option Text) : Via :=
  if entry.1 = "branch".toList then { via with branch := entry.2.getD [] }
  else if entry.1 = "received".toList then { via with received := entry.2 }
  else if entry.1 = "rport".toList then
    { via with rport := entry.2.map fun value => (readUInt16 value).getD 0 }
  else { via with params := via.params.insert entry.1 entry.2 }

/-- A user before the host is dropped, and so are the transport, the flag and the
    headers that the URI may have. -/
def Via.ofUri (transport : TransportType) (uri : Uri) : Via :=
  uri.params.entries.foldl Via.setParam { transport, host := uri.host, port := uri.port }

def Via.fromStr (form : FormUrlencoded) (s : Text) : Option Via :=
  (cut ' ' s).2.bind fun addr =>
    (viaTransport (cut ' ' s).1).bind fun transport =>
      (Uri.fromStr form ("sip:".toList ++ addr)).map (Via.ofUri transport)

end Reading

section Printing

def Via.paramParts (via : Via) : List Text :=
  via.received.elim [] (fun received => ["received=".toList ++ received]) ++
    via.rport.elim [] (fun rport => ["rport=".toList ++ digits rport.toNat]) ++
    ["branch=".toList ++ via.branch]

def Via.addrText (via : Via) : Text :=
  via.host ++ via.port.elim [] (fun port => ':' :: digits port.toNat) ++
    via.paramParts.flatMap (';' :: ·)

def Via.toText (via : Via) : Text :=
  "SIP/2.0/".toList ++ (transportText via.transport).map Char.toUpper ++ ' ' :: via.addrText

end Printing

section AsUri

/-- The URI whose location is printed. -/
def Via.asUri (via : Via) : Uri where
  scheme := "sip".toList
  host := via.host
  port := via.port
  params := {
    entries := via.received.elim [] (fun received => [("received".toList, some received)]) ++
      via.rport.elim [] (fun rport => [("rport".toList, some (digits rport.toNat))]) ++
      [("branch".toList, some via.branch)]
    nodup := by
      cases via.received <;> cases via.rport <;> simp }

theorem locationText_asUri (via : Via) : via.asUri.locationText form = via.addrText := by
  have headers : via.asUri.headersText form = [] := by
    have nothing : form.serialize via.asUri.headers.entries = [] := form.serialize_nil
    unfold Uri.headersText
    rw [nothing]
    rfl
  have parts : via.asUri.paramParts = via.paramParts := by
    obtain ⟨transport, host, port, branch, received, rport, params⟩ := via
    cases received <;> cases rport <;> rfl
  unfold Uri.locationText
  rw [headers, parts, List.append_nil]
  rfl

/-- What the fields of a Via that was read look like. -/
structure Via.Formed (via : Via) : Prop where
  host : ∀ c ∈ via.host, hostChar c = true
  branch : ';' ∉ via.branch ∧ '?' ∉ via.branch
  received : ∀ received ∈ via.received, ';' ∉ received ∧ '?' ∉ received

theorem asUri_formed {via : Via} (formed : via.Formed) : via.asUri.Formed := by
  have scheme : isScheme "sip".toList = true := by decide
  refine ⟨scheme, by simp [Via.asUri], fun _ => rfl, formed.host, fun entry member => ?_⟩
  unfold Via.asUri at member
  simp only [List.mem_append, List.mem_singleton] at member
  rcases member with (received | rport) | rfl
  · cases shape : via.received with
    | none =>
      rw [shape] at received
      cases received
    | some text =>
      rw [shape] at received
      obtain rfl := List.mem_singleton.mp received
      obtain ⟨semicolon, mark⟩ := formed.received text shape
      exact ⟨by simp, by simp, by simp, by simp, by simp [entryText, semicolon],
        by simp [entryText, mark]⟩
  · cases shape : via.rport with
    | none =>
      rw [shape] at rport
      cases rport
    | some value =>
      rw [shape] at rport
      obtain rfl := List.mem_singleton.mp rport
      have semicolon := @not_mem_digits ';' value.toNat (by decide)
      have mark := @not_mem_digits '?' value.toNat (by decide)
      exact ⟨by simp, by simp, by simp, by simp, by simp [entryText, semicolon],
        by simp [entryText, mark]⟩
  · obtain ⟨semicolon, mark⟩ := formed.branch
    exact ⟨by simp, by simp, by simp, by simp, by simp [entryText, semicolon],
      by simp [entryText, mark]⟩

theorem ofUri_asUri (via : Via) : Via.ofUri via.transport via.asUri = { via with params := .empty } := by
  obtain ⟨transport, host, port, branch, received, rport, params⟩ := via
  unfold Via.ofUri Via.asUri
  cases received with
  | none =>
    cases rport with
    | none => rfl
    | some value =>
      simp [Via.setParam, readUInt16_digits]
  | some text =>
    cases rport with
    | none => rfl
    | some value =>
      simp [Via.setParam, readUInt16_digits]

end AsUri

section Counting
variable {marked : Char → Bool}

def Via.count (marked : Char → Bool) (via : Via) : Nat :=
  via.host.countP marked + via.received.elim 0 (List.countP marked) + via.branch.countP marked

theorem setParam_count (via : Via) (entry : Text × Option Text) :
    (via.setParam entry).count marked ≤ via.count marked + (entryText entry).countP marked := by
  obtain ⟨name, value⟩ := entry
  have held : value.elim 0 (List.countP marked) ≤ (entryText (name, value)).countP marked := by
    unfold entryText join
    rw [List.countP_append]
    cases value with
    | none => simp
    | some text =>
      simp only [Option.elim_some, List.countP_cons]
      omega
  unfold Via.setParam Via.count
  split
  · simp only
    cases value with
    | none =>
      simp only [Option.getD_none, List.countP_nil]
      omega
    | some text =>
      simp only [Option.elim_some] at held
      simp only [Option.getD_some]
      omega
  split
  · simp only
    omega
  split
  · simp only
    omega
  · simp only
    omega

theorem setParams_count (entries : List (Text × Option Text)) (via : Via) :
    (entries.foldl Via.setParam via).count marked ≤
      via.count marked + (entries.map fun entry => (entryText entry).countP marked).sum := by
  induction entries generalizing via with
  | nil => simp
  | cons entry entries ih =>
    have first := @setParam_count marked via entry
    have rest := ih (via.setParam entry)
    rw [List.foldl_cons, List.map_cons, List.sum_cons]
    omega

theorem ofUri_count (transport : TransportType) (uri : Uri) :
    (Via.ofUri transport uri).count marked ≤ uri.host.countP marked + uri.paramCount marked :=
  setParams_count uri.params.entries { transport, host := uri.host, port := uri.port }

theorem asUri_count (foreign : Foreign marked) (via : Via) :
    via.host.countP marked + via.asUri.paramCount marked = via.count marked := by
  have named : ∀ name value : Text, (∀ c ∈ name, furniture c = true) →
      (entryText (name, some value)).countP marked = value.countP marked := by
    intro name value known
    have equals : marked '=' = false := foreign '=' (by decide)
    simp [entryText, foreign.countP_eq_zero known, equals]
  have received := fun value => named "received".toList value (by decide)
  have rport := fun value => named "rport".toList value (by decide)
  have branch := fun value => named "branch".toList value (by decide)
  have number := fun value => foreign.countP_eq_zero (furniture_digits value)
  obtain ⟨transport, host, port, text, origin, back, params⟩ := via
  unfold Uri.paramCount Via.asUri Via.count
  cases origin with
  | none =>
    cases back with
    | none => simp only [Option.elim_none, List.nil_append, List.map_cons, List.map_nil,
        List.sum_cons, List.sum_nil, branch, Nat.add_zero]
    | some value =>
      simp only [Option.elim_none, Option.elim_some, List.nil_append, List.cons_append,
        List.map_cons, List.map_nil, List.sum_cons, List.sum_nil, branch, rport, number]
      omega
  | some value =>
    cases back with
    | none =>
      simp only [Option.elim_none, Option.elim_some, List.append_nil, List.cons_append,
        List.nil_append, List.map_cons, List.map_nil, List.sum_cons, List.sum_nil, branch, received]
      omega
    | some port =>
      simp only [Option.elim_some, List.cons_append, List.nil_append, List.map_cons, List.map_nil,
        List.sum_cons, List.sum_nil, branch, received, rport, number]
      omega

theorem addrText_count (form : FormUrlencoded) (foreign : Foreign marked) (via : Via) :
    via.addrText.countP marked = via.count marked := by
  rw [← @locationText_asUri form, locationText_count foreign via.asUri]
  exact asUri_count foreign via

end Counting

section Formed

theorem setParam_formed {via : Via} (formed : via.Formed) {entry : Text × Option Text}
    (named : NamedParam entry) : (via.setParam entry).Formed := by
  obtain ⟨name, value⟩ := entry
  have inner : ∀ text ∈ value, ';' ∉ text ∧ '?' ∉ text := by
    intro text same
    obtain ⟨_, semicolon, mark⟩ := named.onePart
    obtain rfl : value = some text := same
    simp only [entryText, join_some, List.mem_append, List.mem_cons, not_or] at semicolon mark
    exact ⟨semicolon.2.2, mark.2.2⟩
  unfold Via.setParam
  split
  · refine ⟨formed.host, ?_, formed.received⟩
    cases value with
    | none => simp
    | some text => exact inner text rfl
  split
  · exact ⟨formed.host, formed.branch, inner⟩
  split
  · exact ⟨formed.host, formed.branch, formed.received⟩
  · exact ⟨formed.host, formed.branch, formed.received⟩

theorem setParams_formed {via : Via} (formed : via.Formed) {entries : List (Text × Option Text)}
    (named : ∀ entry ∈ entries, NamedParam entry) : (entries.foldl Via.setParam via).Formed := by
  induction entries generalizing via with
  | nil => exact formed
  | cons entry entries ih =>
    exact ih (setParam_formed formed (named entry List.mem_cons_self))
      fun later member => named later (List.mem_cons_of_mem _ member)

theorem Via.fromStr_some {s : Text} {via : Via} (read : Via.fromStr form s = some via) :
    ∃ addr uri transport, (cut ' ' s).2 = some addr ∧
      Uri.fromStr form ("sip:".toList ++ addr) = some uri ∧ via = Via.ofUri transport uri := by
  obtain ⟨addr, found, inner⟩ := Option.bind_eq_some_iff.mp read
  obtain ⟨transport, _, rest⟩ := Option.bind_eq_some_iff.mp inner
  obtain ⟨uri, readUri, rfl⟩ := Option.map_eq_some_iff.mp rest
  exact ⟨addr, uri, transport, found, readUri, rfl⟩

theorem Via.fromStr_formed {s : Text} {via : Via} (read : Via.fromStr form s = some via) :
    via.Formed := by
  obtain ⟨addr, uri, transport, _, readUri, rfl⟩ := Via.fromStr_some read
  have formed := Uri.fromStr_formed readUri
  exact setParams_formed ⟨formed.host, by simp, by simp⟩ formed.params

/-- A character that is not in the text is not in what is printed of the Via read from it. -/
theorem not_mem_viaText {c : Char} (other : furniture c = false) (visible : c ∉ " /@".toList)
    {s : Text} {via : Via} (read : Via.fromStr form s = some via) (absent : c ∉ s) :
    c ∉ via.toText := by
  obtain ⟨addr, uri, transport, found, readUri, rfl⟩ := Via.fromStr_some read
  have whole := (@cut_eq_some _ _ _ s _ _ (Prod.ext rfl found)).2
  have inside : c ∉ "sip:".toList ++ addr := by
    have letters : ∀ d ∈ "sip:".toList, furniture d = true := by decide
    intro member
    rcases List.mem_append.mp member with scheme | later
    · rw [letters c scheme] at other
      cases other
    · rw [whole] at absent
      exact absent (List.mem_append_right _ (List.mem_cons_of_mem _ later))
  have held := Uri.fromStr_count (· == c) readUri
  rw [countP_beq_eq_zero.mpr inside] at held
  have fewer := @ofUri_count ((· == c)) transport uri
  have nothing : (Via.ofUri transport uri).addrText.countP (· == c) = 0 := by
    rw [addrText_count form (foreign_char other)]
    unfold Uri.count at held
    omega
  intro member
  rcases List.mem_append.mp member with proto | later
  · have letters : ∀ transport : TransportType,
        ∀ d ∈ "SIP/2.0/".toList ++ (transportText transport).map Char.toUpper,
          furniture d = true ∨ d = '/' := by
      intro transport
      cases transport <;> decide
    rcases letters _ c proto with known | rfl
    · rw [known] at other
      cases other
    · exact visible (by decide)
  · rcases List.mem_cons.mp later with rfl | inner
    · exact visible (by decide)
    · exact countP_beq_eq_zero.mp nothing inner

end Formed

section RoundTrip

/-- The branch stands last and loses the white space at its end. -/
def Via.trimmed (via : Via) : Via := { via with branch := trimEnd whitespace via.branch }

theorem trimmed_via_formed {via : Via} (formed : via.Formed) : via.trimmed.Formed := by
  have fewer := (@trimEnd_front _ whitespace via.branch).subset
  exact ⟨formed.host, ⟨fun member => formed.branch.1 (fewer member),
    fun member => formed.branch.2 (fewer member)⟩, formed.received⟩

theorem viaText_shape (via : Via) : ∃ front : Text, ∀ branch : Text,
    Via.toText { via with branch } = 'S' :: front ++ '=' :: branch := by
  let parts := via.received.elim [] (fun received => ["received=".toList ++ received]) ++
    via.rport.elim [] fun rport => ["rport=".toList ++ digits rport.toNat]
  have start : ∀ rest : Text, "SIP/2.0/".toList ++ rest = 'S' :: ("IP/2.0/".toList ++ rest) :=
    fun rest => rfl
  have last : ∀ branch : Text,
      ["branch=".toList ++ branch].flatMap (';' :: ·) = ";branch".toList ++ '=' :: branch := by
    intro branch
    rw [List.flatMap_singleton]
    rfl
  refine ⟨"IP/2.0/".toList ++ ((transportText via.transport).map Char.toUpper ++
    ' ' :: (via.host ++ (via.port.elim [] (fun port => ':' :: digits port.toNat) ++
      (parts.flatMap (';' :: ·) ++ ";branch".toList)))), fun branch => ?_⟩
  have written : Via.toText { via with branch } =
      "SIP/2.0/".toList ++ (transportText via.transport).map Char.toUpper ++
        ' ' :: (via.host ++ via.port.elim [] (fun port => ':' :: digits port.toNat) ++
          (parts ++ ["branch=".toList ++ branch]).flatMap (';' :: ·)) := rfl
  rw [written, List.flatMap_append, last, List.append_assoc, start]
  simp only [List.append_assoc, List.cons_append]

theorem trim_viaText (via : Via) : trim whitespace via.toText = via.trimmed.toText := by
  obtain ⟨front, shape⟩ := viaText_shape via
  have whole : via.toText = 'S' :: front ++ '=' :: via.branch := shape via.branch
  have first : ∀ c ∈ ('S' :: front ++ ['=']).head?, whitespace c = false := by
    intro c start
    obtain rfl : 'S' = c := by simpa using start
    decide
  rw [whole, trim_solid _ '=' _ first (by decide)]
  exact (shape (trimEnd whitespace via.branch)).symm

theorem cut_viaText (via : Via) :
    cut ' ' via.toText =
      ("SIP/2.0/".toList ++ (transportText via.transport).map Char.toUpper, some via.addrText) := by
  refine cut_join _ (some via.addrText) ?_
  cases via.transport <;> decide

theorem viaTransport_text (transport : TransportType) :
    viaTransport ("SIP/2.0/".toList ++ (transportText transport).map Char.toUpper) =
      some transport := by
  cases transport <;> decide

theorem Via.fromStr_text {via : Via} (formed : via.Formed)
    (unseen : seenUser via.addrText = false) :
    Via.fromStr form via.toText = some { via with params := .empty } := by
  have uriFormed := asUri_formed formed
  have read := @fromStr_toText_alone form _ uriFormed rfl
    (by rw [locationText_asUri]; exact unseen)
  rw [toText_formed uriFormed, locationText_asUri] at read
  have same : "sip:".toList ++ via.addrText =
      via.asUri.scheme ++ ':' :: (via.asUri.user.elim [] (· ++ ['@']) ++ via.addrText) := rfl
  unfold Via.fromStr
  rw [cut_viaText, Option.bind_some, viaTransport_text, Option.bind_some, same, read,
    Option.map_some, ofUri_asUri]

/-- A Via comes back from its text if it has no other parameters, no user is seen in its
    host and what follows, and its branch ends in no white space. -/
structure Via.Kept (via : Via) : Prop where
  params : via.params = .empty
  user : seenUser via.addrText = false
  branch : trimEnd whitespace via.branch = via.branch

instance Via.decidableKept (via : Via) : Decidable via.Kept :=
  decidable_of_iff (via.params = .empty ∧ seenUser via.addrText = false ∧
      trimEnd whitespace via.branch = via.branch)
    ⟨fun all => ⟨all.1, all.2.1, all.2.2⟩, fun kept => ⟨kept.params, kept.user, kept.branch⟩⟩

/-- The at sign after a user is in none of the fields. -/
theorem user_unseen {via : Via} (back : Via.fromStr form via.trimmed.toText = some via) :
    seenUser via.trimmed.addrText = false := by
  cases seen : seenUser via.trimmed.addrText with
  | false => rfl
  | true =>
    obtain ⟨addr, uri, transport, found, readUri, same⟩ := Via.fromStr_some back
    rw [cut_viaText] at found
    obtain rfl := Option.some.inj found
    have legal : isScheme "sip".toList = true := by decide
    have named := fromStr_seen legal seen readUri
    have other : Foreign (· == '@') := foreign_char (by decide)
    have held := Uri.fromStr_count (· == '@') readUri
    have sign : ['@'].countP (· == '@') = 1 := by decide
    have letters : "sip:".toList.countP (· == '@') = 0 := by decide
    have printed := addrText_count form other via.trimmed
    have fewer := @ofUri_count ((· == '@')) transport uri
    have shorter : via.trimmed.count (· == '@') ≤ via.count (· == '@') := by
      have branch := (@trimEnd_front _ whitespace via.branch).sublist.countP_le
        (p := (· == '@'))
      unfold Via.count Via.trimmed
      simp only
      omega
    rw [← same] at fewer
    rw [if_pos named, sign, List.countP_append, letters, printed] at held
    unfold Uri.count at held
    omega

/-- Exactly the kept entries come back from the text they are printed as. -/
theorem Via.fromStr_toText {via : Via} (formed : via.Formed) :
    Via.fromStr form (trim whitespace via.toText) = some via ↔ via.Kept := by
  rw [trim_viaText]
  constructor
  · intro back
    have unseen := user_unseen back
    rw [Via.fromStr_text (trimmed_via_formed formed) unseen] at back
    have same := Option.some.inj back
    have branch : trimEnd whitespace via.branch = via.branch := congrArg Via.branch same
    have whole : via.trimmed = via := by
      unfold Via.trimmed
      rw [branch]
    rw [whole] at unseen
    exact ⟨(congrArg Via.params same).symm, unseen, branch⟩
  · intro kept
    have whole : via.trimmed = via := by
      unfold Via.trimmed
      rw [kept.branch]
    rw [whole, Via.fromStr_text formed kept.user, ← kept.params]

end RoundTrip

end SipText
