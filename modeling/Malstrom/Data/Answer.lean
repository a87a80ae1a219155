namespace Malstrom.Data

/-! Machines which answer every input, and their answers after they were
stopped and taken up again. -/

section

variable {σ τ ι ο : Type}

/-- The state after a list of inputs, and the answer to each. -/
def answer (step : σ → ι → σ × ο) : σ → List ι → σ × List ο
  | state, [] => (state, [])
  | state, input :: rest =>
      let stepped := step state input
      let later := answer step stepped.1 rest
      (later.1, stepped.2 :: later.2)

variable {step : σ → ι → σ × ο}

@[simp] theorem answer_nil (state : σ) :
    answer step state [] = (state, []) := rfl

@[simp] theorem answer_cons (state : σ) (input : ι) (rest : List ι) :
    answer step state (input :: rest) =
      ((answer step (step state input).1 rest).1,
        (step state input).2 :: (answer step (step state input).1 rest).2) :=
  rfl

theorem answer_append (state : σ) (first second : List ι) :
    answer step state (first ++ second) =
      ((answer step (answer step state first).1 second).1,
        (answer step state first).2 ++
          (answer step (answer step state first).1 second).2) := by
  induction first generalizing state with
  | nil => rfl
  | cons input rest ih => simp [ih]

theorem answer_invariant (holds : σ → Prop)
    (preserved : ∀ state input, holds state → holds (step state input).1)
    {state : σ} (initial : holds state) (inputs : List ι) :
    holds (answer step state inputs).1 := by
  induction inputs generalizing state with
  | nil => exact initial
  | cons input rest ih => exact ih (preserved state input initial)

/-- Two machines which are alike and which every input leaves alike give the
same answers. -/
theorem answer_alike {υ : Type} {other : υ → ι → υ × ο}
    (alike : σ → υ → Prop)
    (preserved : ∀ left right input, alike left right →
      alike (step left input).1 (other right input).1 ∧
        (step left input).2 = (other right input).2)
    {left : σ} {right : υ} (initial : alike left right) (inputs : List ι) :
    alike (answer step left inputs).1 (answer other right inputs).1 ∧
      (answer step left inputs).2 = (answer other right inputs).2 := by
  induction inputs generalizing left right with
  | nil => exact ⟨initial, rfl⟩
  | cons input rest ih =>
      obtain ⟨next, same⟩ := preserved left right input initial
      obtain ⟨last, later⟩ := ih next
      refine ⟨last, ?_⟩
      rw [answer_cons, answer_cons, same, later]

end

end Malstrom.Data
