import Mathlib.Logic.Function.Basic
import Mathlib.Data.List.Nodup

/- A record that is filled line by line: a line concerns one field, and what it makes of
   the field depends on the line and on the field alone. The fields may be read one at
   a time, each from its own lines. -/
namespace LineRecord

variable {Field Line : Type} [DecidableEq Field] {Value : Field → Type}
  {field : Line → Field} {read : (f : Field) → Line → Value f → Option (Value f)}

def readLine (field : Line → Field) (read : (f : Field) → Line → Value f → Option (Value f))
    (record : (f : Field) → Value f) (line : Line) : Option ((f : Field) → Value f) :=
  (read (field line) line (record (field line))).map (Function.update record (field line))

def readLines (field : Line → Field) (read : (f : Field) → Line → Value f → Option (Value f))
    (record : (f : Field) → Value f) (lines : List Line) : Option ((f : Field) → Value f) :=
  lines.foldlM (readLine field read) record

/-- What the lines of one field make of its value. -/
def readField (field : Line → Field) (read : (f : Field) → Line → Value f → Option (Value f))
    (f : Field) (value : Value f) (lines : List Line) : Option (Value f) :=
  (lines.filter fun line => field line = f).foldlM (fun value line => read f line value) value

theorem readField_own (f : Field) (value : Value f) {line : Line} (own : field line = f)
    (lines : List Line) :
    readField field read f value (line :: lines) =
      (read f line value).bind fun next => readField field read f next lines := by
  unfold readField
  rw [List.filter_cons_of_pos (by simpa using own), List.foldlM_cons]
  rfl

theorem readField_other (f : Field) (value : Value f) {line : Line} (other : field line ≠ f)
    (lines : List Line) :
    readField field read f value (line :: lines) = readField field read f value lines := by
  unfold readField
  rw [List.filter_cons_of_neg (by simpa using other)]

/-- Lines are read into a record if and only if each field is read from its own lines. -/
theorem readLines_eq_some {lines : List Line} {record after : (f : Field) → Value f} :
    readLines field read record lines = some after ↔
      ∀ f, readField field read f (record f) lines = some (after f) := by
  induction lines generalizing record with
  | nil =>
    constructor
    · intro same f
      obtain rfl := Option.some.inj same
      rfl
    · intro each
      exact congrArg some (funext fun f => Option.some.inj (each f))
  | cons line lines ih =>
    constructor
    · intro whole f
      obtain ⟨next, first, rest⟩ := Option.bind_eq_some_iff.mp whole
      obtain ⟨value, made, rfl⟩ := Option.map_eq_some_iff.mp first
      have later := ih.mp rest f
      by_cases own : field line = f
      · subst own
        rw [Function.update_self] at later
        rw [readField_own _ _ rfl, made, Option.bind_some, later]
      · rw [Function.update_of_ne (fun same => own same.symm)] at later
        rw [readField_other f _ own, later]
    · intro each
      have mine := each (field line)
      rw [readField_own _ _ rfl] at mine
      obtain ⟨value, made, rest⟩ := Option.bind_eq_some_iff.mp mine
      have later : readLines field read (Function.update record (field line) value) lines =
          some after := by
        refine ih.mpr fun f => ?_
        by_cases own : field line = f
        · subst own
          rw [Function.update_self]
          exact rest
        · have others := each f
          rw [readField_other f _ own] at others
          rw [Function.update_of_ne (fun same => own same.symm)]
          exact others
      have first : readLine field read record line =
          some (Function.update record (field line) value) := by
        unfold readLine
        rw [made]
        rfl
      unfold readLines at later ⊢
      rw [List.foldlM_cons, first]
      exact later

/-- The last line makes the value of its field. -/
theorem readLines_last {front : List Line} {line : Line} {f : Field} (own : field line = f)
    {record after : (f : Field) → Value f}
    (done : readLines field read record (front ++ [line]) = some after) :
    ∃ old, read f line old = some (after f) := by
  subst own
  unfold readLines at done
  rw [List.foldlM_append] at done
  obtain ⟨mid, _, step⟩ := Option.bind_eq_some_iff.mp done
  rw [List.foldlM_cons] at step
  obtain ⟨final, one, rest⟩ := Option.bind_eq_some_iff.mp step
  obtain rfl := Option.some.inj rest
  obtain ⟨value, made, rfl⟩ := Option.map_eq_some_iff.mp one
  rw [Function.update_self]
  exact ⟨mid (field line), made⟩

/-- What every line keeps of the field it concerns holds of all fields after all lines. -/
theorem readLines_keeps {lines : List Line} {record after : (f : Field) → Value f}
    (keeps : (f : Field) → Value f → Prop)
    (step : ∀ line ∈ lines, ∀ old new, keeps (field line) old →
      read (field line) line old = some new → keeps (field line) new)
    (start : ∀ f, keeps f (record f)) (done : readLines field read record lines = some after) :
    ∀ f, keeps f (after f) := by
  induction lines generalizing record with
  | nil =>
    obtain rfl := Option.some.inj done
    exact start
  | cons line lines ih =>
    obtain ⟨next, first, rest⟩ := Option.bind_eq_some_iff.mp done
    obtain ⟨value, made, rfl⟩ := Option.map_eq_some_iff.mp first
    refine ih (fun other member => step other (List.mem_cons_of_mem _ member)) ?_ rest
    intro f
    by_cases own : field line = f
    · subst own
      rw [Function.update_self]
      exact step line List.mem_cons_self _ _ (start _) made
    · rw [Function.update_of_ne (fun same => own same.symm)]
      exact start f

theorem readField_none (f : Field) (value : Value f) {lines : List Line}
    (none : ∀ line ∈ lines, field line ≠ f) :
    readField field read f value lines = some value := by
  have nothing : lines.filter (fun line => field line = f) = [] := by
    simpa [List.filter_eq_nil_iff] using none
  unfold readField
  rw [nothing]
  rfl

section Printing
variable {print : Field → List Line} {order : List Field}

/-- Of the lines printed field by field, the lines of one field. -/
theorem filter_printed (own : ∀ f ∈ order, ∀ line ∈ print f, field line = f)
    (distinct : order.Nodup) {f : Field} (member : f ∈ order) :
    (order.flatMap print).filter (fun line => field line = f) = print f := by
  have mine : ∀ g ∈ order, (print g).filter (fun line => field line = f) =
      if g = f then print f else [] := by
    intro g known
    split
    · rename_i same
      subst same
      exact List.filter_eq_self.mpr fun line inside => by simpa using own g known line inside
    · rename_i apart
      refine List.filter_eq_nil_iff.mpr fun line inside => ?_
      simpa [own g known line inside] using apart
  induction order with
  | nil => cases member
  | cons g order ih =>
    rw [List.flatMap_cons, List.filter_append, mine g List.mem_cons_self]
    have outside := (List.nodup_cons.mp distinct)
    by_cases same : g = f
    · subst same
      have rest : (order.flatMap print).filter (fun line => field line = g) = [] := by
        refine List.filter_eq_nil_iff.mpr fun line inside => ?_
        obtain ⟨h, known, there⟩ := List.mem_flatMap.mp inside
        have concerned := own h (List.mem_cons_of_mem _ known) line there
        have apart : h ≠ g := fun equal => outside.1 (equal ▸ known)
        simpa [concerned] using apart
      rw [if_pos rfl, rest, List.append_nil]
    · have later : f ∈ order := by
        rcases List.mem_cons.mp member with first | later
        · exact absurd first.symm same
        · exact later
      rw [if_neg same, List.nil_append]
      exact ih (fun h known => own h (List.mem_cons_of_mem _ known)) outside.2 later
        fun h known => mine h (List.mem_cons_of_mem _ known)

/-- A record that was printed field by field comes back if and only if each field comes
    back from what was printed of it. -/
theorem printed_eq_some {record after : (f : Field) → Value f}
    (own : ∀ f ∈ order, ∀ line ∈ print f, field line = f) (distinct : order.Nodup) :
    readLines field read record (order.flatMap print) = some after ↔
      (∀ f ∈ order,
        (print f).foldlM (fun value line => read f line value) (record f) = some (after f)) ∧
      ∀ f, f ∉ order → record f = after f := by
  have outside : ∀ f, f ∉ order → ∀ line ∈ order.flatMap print, field line ≠ f := by
    intro f absent line inside same
    obtain ⟨g, known, there⟩ := List.mem_flatMap.mp inside
    exact absent (same ▸ own g known line there ▸ known)
  rw [readLines_eq_some]
  constructor
  · intro each
    refine ⟨fun f member => ?_, fun f absent => ?_⟩
    · have mine := each f
      unfold readField at mine
      rwa [filter_printed own distinct member] at mine
    · have mine := each f
      rw [readField_none f _ (outside f absent)] at mine
      exact Option.some.inj mine
  · rintro ⟨inside, others⟩ f
    by_cases member : f ∈ order
    · unfold readField
      rw [filter_printed own distinct member]
      exact inside f member
    · rw [readField_none f _ (outside f member), others f member]

end Printing

end LineRecord
