import Nebula.Sip.Message
import Mathlib.Logic.Function.Basic

/- When two messages are filed under one transaction: the parts of a key are hashed as one text,
   so a part can end where the next one begins in another key. -/
namespace Sip

section Tuples

/-- What a transaction is identified by. -/
def TransactionKey.tuple (key : TransactionKey) : String × Method × String × TransactionType :=
  (key.branch, key.method, key.callid, key.txType)

/-- The branch of one key goes on with a text that the other key has in its method and Call-ID,
    before what are the method and the Call-ID of the first. -/
def Longer (key other : TransactionKey) : Prop :=
  ∃ more, more ≠ "" ∧ key.branch = other.branch ++ more ∧
    other.method.text ++ other.callid = more ++ key.method.text ++ key.callid

def Shifted (key other : TransactionKey) : Prop :=
  key.txType = other.txType ∧ (Longer key other ∨ Longer other key)

theorem append_cut {first second firstRest secondRest : String}
    (same : first ++ firstRest = second ++ secondRest) :
    (∃ more, second = first ++ more ∧ firstRest = more ++ secondRest) ∨
      ∃ more, first = second ++ more ∧ secondRest = more ++ firstRest := by
  have chars : first.toList ++ firstRest.toList = second.toList ++ secondRest.toList := by
    rw [← String.toList_append, same, String.toList_append]
  rcases List.append_eq_append_iff.mp chars with ⟨more, front, back⟩ | ⟨more, front, back⟩
  · refine Or.inl ⟨String.ofList more, ?_, ?_⟩
    · exact String.toList_injective (by rw [front, String.toList_append, String.toList_ofList])
    · exact String.toList_injective (by rw [back, String.toList_append, String.toList_ofList])
  · refine Or.inr ⟨String.ofList more, ?_, ?_⟩
    · exact String.toList_injective (by rw [front, String.toList_append, String.toList_ofList])
    · exact String.toList_injective (by rw [back, String.toList_append, String.toList_ofList])

theorem method_start (first second : Method)
    (front : first.text.toList.isPrefixOf second.text.toList = true) : first = second := by
  revert front
  cases first <;> cases second <;> decide

/-- No method's text begins with another's. -/
theorem method_first {first second : Method} {firstRest secondRest : String}
    (same : first.text ++ firstRest = second.text ++ secondRest) :
    first = second ∧ firstRest = secondRest := by
  have texts : first = second := by
    rcases append_cut same with ⟨more, longer, -⟩ | ⟨more, longer, -⟩
    · refine method_start first second (List.isPrefixOf_iff_prefix.mpr ⟨more.toList, ?_⟩)
      rw [longer, String.toList_append]
    · refine (method_start second first (List.isPrefixOf_iff_prefix.mpr ⟨more.toList, ?_⟩)).symm
      rw [longer, String.toList_append]
  subst texts
  exact ⟨rfl, (String.append_right_inj _).mp same⟩

/-- The texts of both types have the same length and differ. -/
theorem type_last {first second : TransactionType} {firstFront secondFront : String}
    (same : firstFront ++ first.text = secondFront ++ second.text) :
    firstFront = secondFront ∧ first = second := by
  have chars : firstFront.toList ++ first.text.toList =
      secondFront.toList ++ second.text.toList := by
    rw [← String.toList_append, same, String.toList_append]
  have six : first.text.toList.length = second.text.toList.length := by
    cases first <;> cases second <;> decide
  obtain ⟨fronts, ends⟩ := List.append_inj' chars six
  refine ⟨String.toList_injective fronts, ?_⟩
  revert ends
  cases first <;> cases second <;> decide

end Tuples

section Keys

/-- A key is one that `new` makes. -/
def TransactionKey.Made (sha256 : String → String) (key : TransactionKey) : Prop :=
  key = .new sha256 key.branch key.method key.callid key.txType

theorem redisKey_eq_iff {sha256 : String → String} (collisionFree : Function.Injective sha256)
    {key other : TransactionKey} (made : key.Made sha256) (otherMade : other.Made sha256) :
    key.redisKey = other.redisKey ↔
      key.branch ++ key.method.text ++ key.callid ++ key.txType.text =
        other.branch ++ other.method.text ++ other.callid ++ other.txType.text := by
  unfold TransactionKey.redisKey
  rw [String.append_right_inj, made, otherMade]
  exact collisionFree.eq_iff

theorem tuple_or_longer {key other : TransactionKey} {more : String}
    (types : key.txType = other.txType) (branch : key.branch = other.branch ++ more)
    (rest : other.method.text ++ other.callid = more ++ (key.method.text ++ key.callid)) :
    key.tuple = other.tuple ∨ Longer key other := by
  by_cases none_ : more = ""
  · rw [none_, String.append_empty] at branch
    rw [none_, String.empty_append] at rest
    obtain ⟨methods, callids⟩ := method_first rest
    exact Or.inl (by simp [TransactionKey.tuple, branch, methods, callids, types])
  · refine Or.inr ⟨more, none_, branch, ?_⟩
    rw [rest, String.append_assoc]

theorem hashed_of_longer {key other : TransactionKey} (types : key.txType = other.txType)
    (longer : Longer key other) :
    key.branch ++ key.method.text ++ key.callid ++ key.txType.text =
      other.branch ++ other.method.text ++ other.callid ++ other.txType.text := by
  obtain ⟨more, -, branch, rest⟩ := longer
  have tail : other.branch ++ (other.method.text ++ other.callid) ++ other.txType.text =
      other.branch ++ (more ++ key.method.text ++ key.callid) ++ key.txType.text := by
    rw [rest, types]
  rw [branch]
  simp only [String.append_assoc] at tail ⊢
  exact tail.symm

theorem hashed_eq_iff (key other : TransactionKey) :
    key.branch ++ key.method.text ++ key.callid ++ key.txType.text =
        other.branch ++ other.method.text ++ other.callid ++ other.txType.text ↔
      key.tuple = other.tuple ∨ Shifted key other := by
  constructor
  · intro same
    obtain ⟨fronts, types⟩ := type_last same
    rw [String.append_assoc, String.append_assoc] at fronts
    rcases append_cut fronts with ⟨more, branch, rest⟩ | ⟨more, branch, rest⟩
    · rcases tuple_or_longer types.symm branch rest with tuple | longer
      · exact Or.inl tuple.symm
      · exact Or.inr ⟨types, Or.inr longer⟩
    · rcases tuple_or_longer types branch rest with tuple | longer
      · exact Or.inl tuple
      · exact Or.inr ⟨types, Or.inl longer⟩
  · rintro (same | ⟨types, longer | longer⟩)
    · obtain ⟨branch, other_⟩ := Prod.mk.inj same
      obtain ⟨method, other_⟩ := Prod.mk.inj other_
      obtain ⟨callid, txType⟩ := Prod.mk.inj other_
      rw [branch, method, callid, txType]
    · exact hashed_of_longer types longer
    · exact (hashed_of_longer types.symm longer).symm

theorem getTxKey_made {sha256 : String → String} {msg : Message} {txType : TransactionType}
    {key : TransactionKey} (found : getTxKey sha256 msg txType = .ok key) : key.Made sha256 := by
  unfold getTxKey at found
  cases shape : msg.via with
  | nil =>
    rw [shape] at found
    cases found
  | cons via rest =>
    rw [shape] at found
    cases found
    rfl

theorem longer_branch_ne {key other : TransactionKey} (longer : Longer key other) :
    key.branch ≠ other.branch := by
  obtain ⟨more, some_, branch, -⟩ := longer
  intro same
  have none_ : "" = more :=
    (String.append_right_inj other.branch).mp (String.append_empty.trans (same.symm.trans branch))
  exact some_ none_.symm

theorem shifted_tuple_ne {key other : TransactionKey} (shifted : Shifted key other) :
    key.tuple ≠ other.tuple := by
  intro same
  have branch := (Prod.mk.inj same).1
  rcases shifted.2 with longer | longer
  · exact longer_branch_ne longer branch
  · exact longer_branch_ne longer branch.symm

/-- Messages that are not of one transaction have different keys exactly where neither key is the
    other one shifted; an ACK is filed under the INVITE of its branch and Call-ID. -/
theorem getTxKey_unambiguous_iff {sha256 : String → String}
    (collisionFree : Function.Injective sha256) {first second : Message}
    {firstType secondType : TransactionType} {key other : TransactionKey}
    (found : getTxKey sha256 first firstType = .ok key)
    (otherFound : getTxKey sha256 second secondType = .ok other) :
    ((key.tuple ≠ other.tuple → key.redisKey ≠ other.redisKey) ↔ ¬ Shifted key other) ∧
      (first.isRequest = true → first.method = some .ACK →
        second.isRequest = true → second.method = some .INVITE →
        first.via.head?.map Via.branch = second.via.head?.map Via.branch →
        first.callid = second.callid → firstType = secondType → key = other) := by
  have keys := (redisKey_eq_iff collisionFree (getTxKey_made found)
    (getTxKey_made otherFound)).trans (hashed_eq_iff key other)
  constructor
  · constructor
    · intro apart shifted
      exact apart (shifted_tuple_ne shifted) (keys.mpr (Or.inr shifted))
    · intro unshifted differ same
      rcases keys.mp same with tuple | shifted
      · exact differ tuple
      · exact unshifted shifted
  · intro request ack inviteRequest invite branch callid type_
    subst type_
    unfold getTxKey at found otherFound
    cases firstVia : first.via with
    | nil =>
      rw [firstVia] at found
      cases found
    | cons via rest =>
      cases secondVia : second.via with
      | nil =>
        rw [secondVia] at otherFound
        cases otherFound
      | cons via' rest' =>
        rw [firstVia, secondVia] at branch
        have branch : via.branch = via'.branch := Option.some.inj branch
        simp only [firstVia, request, ack, if_true, Option.getD_some] at found
        simp only [secondVia, inviteRequest, invite, if_true, Option.getD_some] at otherFound
        rw [branch, callid] at found
        exact Except.ok.inj (found.symm.trans otherFound)

/-- An ACK and the INVITE it is for. -/
def ackMsg : Message :=
  { method := some .ACK, requestUri := some {}, via := [{ branch := "z9hG4bKa" }], callid := "c" }

def inviteMsg : Message := { ackMsg with method := some .INVITE }

theorem getTxKey_unambiguous_iff_ack :
    let key : TransactionKey := .new id "z9hG4bKa" .INVITE "c" .Server
    ((key.tuple ≠ key.tuple → key.redisKey ≠ key.redisKey) ↔ ¬ Shifted key key) ∧
      (ackMsg.isRequest = true → ackMsg.method = some .ACK →
        inviteMsg.isRequest = true → inviteMsg.method = some .INVITE →
        ackMsg.via.head?.map Via.branch = inviteMsg.via.head?.map Via.branch →
        ackMsg.callid = inviteMsg.callid → TransactionType.Server = .Server → key = key) :=
  getTxKey_unambiguous_iff Function.injective_id (by rfl) (by rfl)

/-- An INVITE whose Call-ID begins with a method, and a BYE whose branch ends with one. -/
theorem invite_and_bye_collide : ¬ ∀ (first second : Message) (key other : TransactionKey),
    getTxKey id first .Server = .ok key → getTxKey id second .Server = .ok other →
      key.tuple ≠ other.tuple → key.redisKey ≠ other.redisKey := by
  intro unambiguous
  refine unambiguous { inviteMsg with callid := "BYEb" }
    { inviteMsg with method := some .BYE, via := [{ branch := "z9hG4bKaINVITE" }], callid := "b" }
    _ _ rfl rfl ?_ ?_
  · decide
  · decide

end Keys

end Sip
