import Mathlib.Data.List.Infix

/- Uploads that are taken up again: a service keeps what it has been sent from the beginning on, and
   what is sent once more it has already. -/
namespace ResumableUpload
variable {Byte : Type}

structure Session (Byte : Type) where
  persisted : List Byte
  complete : Bool

def Session.fresh : Session Byte := ⟨[], false⟩

/-- Of content that begins at an offset the service keeps some of what it does not have, and nothing
    where there would be a gap. -/
def Session.put (offset : ℕ) (content : List Byte) (taken : ℕ) (session : Session Byte) :
    Session Byte :=
  if session.complete ∨ session.persisted.length < offset then session
  else { session with
    persisted := session.persisted ++
      (content.drop (session.persisted.length - offset)).take taken }

/-- The last of the contents keeps all of it and ends the upload, unless that is ill-formed. -/
def Session.finish (offset : ℕ) (content : List Byte) (session : Session Byte) : Session Byte :=
  if session.complete ∨ session.persisted.length < offset ∨ content = [] then session
  else
    { persisted := session.persisted ++ content.drop (session.persisted.length - offset)
      complete := true }

/-- The number of the last byte that the service has. -/
def Session.range (session : Session Byte) : Option ℕ :=
  if session.persisted = [] then none else some (session.persisted.length - 1)

theorem range_eq_some {session : Session Byte} {range : ℕ} (told : session.range = some range) :
    range + 1 = session.persisted.length := by
  unfold Session.range at told
  split at told
  · cases told
  · rename_i some
    cases told
    exact Nat.sub_add_cancel (List.length_pos_iff.mpr some)

section Prefixes
variable {session : Session Byte} {stream content : List Byte} {offset : ℕ}

theorem put_complete (taken : ℕ) : (session.put offset content taken).complete = session.complete := by
  unfold Session.put
  split <;> rfl

theorem put_grows (taken : ℕ) :
    session.persisted.length ≤ (session.put offset content taken).persisted.length := by
  unfold Session.put
  split
  · exact Nat.le_refl _
  · simp

/-- What follows the kept part of a stream, in content that begins before its end. -/
theorem append_drop_isPrefix (kept : session.persisted.IsPrefix stream)
    (behind : offset ≤ session.persisted.length)
    (content_of : content.IsPrefix (stream.drop offset)) :
    (session.persisted ++ content.drop (session.persisted.length - offset)).IsPrefix stream := by
  obtain ⟨later, rfl⟩ := kept
  rw [List.prefix_append_right_inj]
  have shorter := content_of.drop (session.persisted.length - offset)
  rwa [List.drop_drop, Nat.add_sub_cancel' behind, List.drop_left] at shorter

theorem put_isPrefix (kept : session.persisted.IsPrefix stream)
    (content_of : content.IsPrefix (stream.drop offset)) (taken : ℕ) :
    (session.put offset content taken).persisted.IsPrefix stream := by
  unfold Session.put
  split
  · exact kept
  · rename_i fits
    rw [not_or, Nat.not_lt] at fits
    refine List.IsPrefix.trans ?_ (append_drop_isPrefix kept fits.2 content_of)
    exact (List.prefix_append_right_inj _).mpr (List.take_prefix _ _)

/-- An upload takes the service no farther than what was sent. -/
theorem put_length_le (behind : offset ≤ session.persisted.length) (taken : ℕ) :
    (session.put offset content taken).persisted.length ≤
      max session.persisted.length (offset + content.length) := by
  unfold Session.put
  split
  · exact Nat.le_max_left _ _
  · simp only [List.length_append, List.length_take, List.length_drop]
    omega

/-- What is left of the stream ends the upload with the whole of it. -/
theorem finish_whole (kept : session.persisted.IsPrefix stream)
    (behind : offset ≤ session.persisted.length) (rest : stream.drop offset = content)
    (running : session.complete = false)
    (done : (session.finish offset content).complete = true) :
    (session.finish offset content).persisted = stream := by
  unfold Session.finish at done ⊢
  split at done
  · rw [running] at done
    cases done
  · rename_i fits
    rw [if_neg fits]
    obtain ⟨later, rfl⟩ := kept
    subst rest
    show _ ++ _ = _
    rw [List.drop_drop, Nat.add_sub_cancel' behind, List.drop_left]

end Prefixes

end ResumableUpload
