/- Machines that take one input after another and answer some of them. -/
namespace Transducer
variable {State Input Output : Type}

abbrev Step (State Input Output : Type) := State → Input → State × Option Output

def final (step : Step State Input Output) (state : State) : List Input → State
  | [] => state
  | input :: rest => final step (step state input).1 rest

def outputs (step : Step State Input Output) (state : State) : List Input → List Output
  | [] => []
  | input :: rest => (step state input).2.toList ++ outputs step (step state input).1 rest

theorem outputs_cons (step : Step State Input Output) (state : State) (input : Input)
    (rest : List Input) : outputs step state (input :: rest) =
      (step state input).2.toList ++ outputs step (step state input).1 rest := rfl

theorem final_append (step : Step State Input Output) (before after : List Input) :
    ∀ state, final step state (before ++ after) = final step (final step state before) after := by
  induction before with
  | nil => exact fun state => rfl
  | cons input rest ih => exact fun state => ih (step state input).1

/-- What has been answered is not taken back by later inputs. -/
theorem outputs_append (step : Step State Input Output) (before after : List Input) :
    ∀ state, outputs step state (before ++ after) =
      outputs step state before ++ outputs step (final step state before) after := by
  induction before with
  | nil => exact fun state => rfl
  | cons input rest ih =>
    intro state
    simp only [List.cons_append, outputs, final, ih, List.append_assoc]

/-- What every step keeps holds after any inputs. -/
theorem final_keeps {step : Step State Input Output} (Holds : State → Prop)
    (kept : ∀ state input, Holds state → Holds (step state input).1) (inputs : List Input) :
    ∀ {state : State}, Holds state → Holds (final step state inputs) := by
  induction inputs with
  | nil => exact fun holds => holds
  | cons input rest ih => exact fun holds => ih (kept _ input holds)

/-- Every answer of a run is the answer of one of its steps. -/
theorem mem_outputs {step : Step State Input Output} {output : Output} (inputs : List Input) :
    ∀ {state : State}, output ∈ outputs step state inputs →
      ∃ before input after, inputs = before ++ input :: after ∧
        (step (final step state before) input).2 = some output := by
  induction inputs with
  | nil => exact fun member => absurd member List.not_mem_nil
  | cons input rest ih =>
    intro state member
    rcases List.mem_append.mp member with here | later
    · exact ⟨[], input, rest, rfl, Option.mem_toList.mp here⟩
    · obtain ⟨before, other, after, same, answered⟩ := ih later
      exact ⟨input :: before, other, after, by rw [same, List.cons_append], answered⟩

end Transducer
