import Nebula.Db.Usrloc

/- Whether the check of a registration looks at the contact that saving it would change. -/
namespace Usrloc
open Sip

section Agreement
variable (host : Host)

/-- The contact that saving a message writes or deletes. -/
def savedKey (authorization : Authorization) (msg : Message) : String :=
  contactKey (owner host authorization) (host.sha256 msg.callid)

/-- A message is checked by the contact of its own: one that was saved can be de-registered as long
    as it is there, and is refreshed unless too much of its time is left. -/
structure Agrees (msg : Message) : Prop where
  inspects : ∀ authorization ∈ msg.authorization, ∀ store other : Store,
    store.contacts (savedKey host authorization msg) =
      other.contacts (savedKey host authorization msg) →
    checkUsrloc host store msg = checkUsrloc host other msg
  deregister : ∀ (earlier : Message) (store saved later : Store) (data : UsrlocData),
    earlier.authorization = msg.authorization → earlier.callid = msg.callid →
    save host earlier store = some (data, saved) →
    (later.contacts (contactKey data.user data.locationId)).isSome →
    requestedExpires msg = 0 → checkUsrloc host later msg = true
  refresh : ∀ authorization ∈ msg.authorization, ∀ (store : Store) (data : UsrlocData)
      (seconds : Int), store.contacts (savedKey host authorization msg) = some (data, seconds) →
    requestedExpires msg ≠ 0 →
    (checkUsrloc host store msg = false ↔ seconds + 10 > requestedExpires msg)

/-- The realm is no customer's own domain, or nothing stands before the domain. -/
def PlainRealm (msg : Message) : Prop :=
  ∀ authorization ∈ msg.authorization, ∀ domain ∈ realmPrefix authorization.realm,
    host.toLowercase domain = ""

end Agreement

section Checked
variable {host : Host} {msg : Message} {authorization : Authorization}

def checkedKey (host : Host) (authorization : Authorization) (msg : Message) : String :=
  contactKey (host.toLowercase authorization.username) (host.sha256 msg.callid)

theorem checkUsrloc_eq (present : msg.authorization = some authorization) (store : Store) :
    checkUsrloc host store msg =
      if requestedExpires msg = 0 then
        (store.contacts (checkedKey host authorization msg)).isSome
      else decide (¬ ttl store (checkedKey host authorization msg) + 10 > requestedExpires msg) := by
  unfold checkUsrloc
  rw [present]
  rfl

theorem contactKey_inj {first second hashedCallid : String}
    (same : contactKey first hashedCallid = contactKey second hashedCallid) : first = second := by
  unfold contactKey at same
  have fronts := (String.append_left_inj _).mp ((String.append_left_inj _).mp same)
  exact (String.append_right_inj _).mp fronts

theorem keys_eq_iff : checkedKey host authorization msg = savedKey host authorization msg ↔
    ∀ domain ∈ realmPrefix authorization.realm, host.toLowercase domain = "" := by
  unfold checkedKey savedKey owner
  cases realmPrefix authorization.realm with
  | none => exact iff_of_true rfl (by simp)
  | some domain =>
    simp only [Option.mem_some_iff, forall_eq']
    constructor
    · intro same
      have users := (String.append_empty.trans (contactKey_inj same))
      exact ((String.append_right_inj _).mp users).symm
    · intro empty
      rw [empty, String.append_empty]

theorem save_key {earlier : Message} {store saved : Store} {data : UsrlocData}
    (present : earlier.authorization = some authorization)
    (ran : save host earlier store = some (data, saved)) :
    contactKey data.user data.locationId = savedKey host authorization earlier := by
  unfold save at ran
  rw [present] at ran
  cases ran
  rfl

theorem agrees_of_key (present : msg.authorization = some authorization)
    (same : checkedKey host authorization msg = savedKey host authorization msg) :
    Agrees host msg := by
  constructor
  · intro other found store second equal
    obtain rfl := Option.some.inj (present.symm.trans found)
    rw [checkUsrloc_eq present, checkUsrloc_eq present, ttl, ttl, same, equal]
  · intro earlier store saved later data header callid ran stored none_
    have key := save_key (header.trans present) ran
    rw [checkUsrloc_eq present, if_pos none_, same]
    have own : savedKey host authorization earlier = savedKey host authorization msg := by
      rw [savedKey, savedKey, callid]
    rw [← own, ← key]
    exact stored
  · intro other found store data seconds stored some_
    obtain rfl := Option.some.inj (present.symm.trans found)
    rw [checkUsrloc_eq present, if_neg some_, same, ttl, stored]
    simp

/-- A store with one contact, which has so many seconds left. -/
def single (key : String) (data : UsrlocData) (seconds : Int) : Store :=
  { Store.empty with contacts := Function.update Store.empty.contacts key (some (data, seconds)) }

theorem single_other {key other : String} (apart : other ≠ key) (data : UsrlocData)
    (seconds : Int) : (single key data seconds).contacts other = none :=
  Function.update_of_ne apart _ _

theorem single_own (key : String) (data : UsrlocData) (seconds : Int) :
    (single key data seconds).contacts key = some (data, seconds) :=
  Function.update_self _ _ _

/-- A message that is checked by another contact is told from one that is not by a store with its
    own contact alone. -/
theorem key_of_agrees (present : msg.authorization = some authorization)
    (agrees : Agrees host msg) :
    checkedKey host authorization msg = savedKey host authorization msg := by
  by_contra apart
  let key := savedKey host authorization msg
  let data := usrlocData host msg authorization
  by_cases none_ : requestedExpires msg = 0
  · let earlier : Message := { msg with expires := some 3600 }
    obtain ⟨saved, ran⟩ : ∃ saved, save host earlier Store.empty =
        some (usrlocData host earlier authorization, saved) := by
      unfold save
      rw [show earlier.authorization = some authorization from present]
      exact ⟨_, rfl⟩
    have accepted := agrees.deregister earlier Store.empty saved
      (single key data 0) _ rfl rfl ran (by
        rw [@save_key host authorization earlier _ saved _ present ran]
        exact congrArg Option.isSome (single_own key data 0)) none_
    rw [checkUsrloc_eq present, if_pos none_, single_other apart] at accepted
    cases accepted
  · have limited (seconds : Int) := agrees.refresh authorization present
      (single key data seconds) data seconds (single_own key data seconds) none_
    have other (seconds : Int) : checkUsrloc host (single key data seconds) msg =
        decide (¬ (-2 : Int) + 10 > requestedExpires msg) := by
      rw [checkUsrloc_eq present, if_neg none_, ttl, single_other apart]
    have long := limited (requestedExpires msg)
    have short := limited (requestedExpires msg - 10)
    rw [other] at long short
    simp only [decide_eq_false_iff_not, not_not] at long short
    omega

end Checked

section Claimed

theorem checkUsrloc_agrees_iff (host : Host) (msg : Message) :
    Agrees host msg ↔ PlainRealm host msg := by
  cases present : msg.authorization with
  | none =>
    refine iff_of_true ⟨?_, ?_, ?_⟩ ?_
    · simp [present]
    · intro earlier store saved later data header callid ran
      rw [save, header.trans present] at ran
      cases ran
    · simp [present]
    · simp [PlainRealm, present]
  | some authorization =>
    have plain : PlainRealm host msg ↔
        ∀ domain ∈ realmPrefix authorization.realm, host.toLowercase domain = "" := by
      simp [PlainRealm, present]
    rw [plain, ← @keys_eq_iff host msg authorization]
    exact ⟨key_of_agrees present, agrees_of_key present⟩

/-- A user of a customer's own domain takes its contact back. -/
def hosted : Message :=
  { authorization := some ⟨"bob", "acme.hosted.surevoip.co.uk", "", "", "", none, none, none⟩
    callid := "call", expires := some 0 }

theorem hosted_not_found : ¬ ∀ (host : Host) (msg : Message), Agrees host msg := by
  intro agrees
  have plain := keys_eq_iff.mp (key_of_agrees rfl (agrees ⟨id, id, "", fun _ => "", ""⟩ hosted))
  have domain := plain "acme" (by decide +kernel)
  exact absurd domain (by decide)

end Claimed

end Usrloc
