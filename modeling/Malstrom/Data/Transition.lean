namespace Malstrom.Data

/-! Runs of a step function whose events an environment may restrict.  A step
either fails for good or yields the next state. -/

section

variable {σ ε π : Type}

inductive Reaches (step : σ → ε → Except π σ) (allowed : σ → ε → Prop)
    (start : σ) : σ → Prop
  | refl : Reaches step allowed start start
  | tail {state next : σ} {event : ε} :
      Reaches step allowed start state →
      allowed state event → step state event = .ok next →
      Reaches step allowed start next

variable {step : σ → ε → Except π σ} {allowed : σ → ε → Prop}
  {start state : σ}

/-- What holds at the start and survives every allowed step holds throughout
the run. -/
theorem Reaches.invariant (holds : σ → Prop) (initial : holds start)
    (preserved : ∀ state event next, Reaches step allowed start state →
      holds state → allowed state event → step state event = .ok next →
      holds next)
    (run : Reaches step allowed start state) : holds state := by
  induction run with
  | refl => exact initial
  | tail run permitted stepped ih =>
      exact preserved _ _ _ run ih permitted stepped

theorem Reaches.trans {middle : σ}
    (first : Reaches step allowed start middle)
    (second : Reaches step allowed middle state) :
    Reaches step allowed start state := by
  induction second with
  | refl => exact first
  | tail _ isAllowed stepped ih => exact ih.tail isAllowed stepped

theorem Reaches.mono {weaker : σ → ε → Prop}
    (weaken : ∀ state event, allowed state event → weaker state event)
    (run : Reaches step allowed start state) :
    Reaches step weaker start state := by
  induction run with
  | refl => exact .refl
  | tail _ permitted stepped ih => exact ih.tail (weaken _ _ permitted) stepped

/-- A run whose every step another machine can match by a run of its own is
matched as a whole. -/
theorem Reaches.simulated {τ η ρ : Type} {other : τ → η → Except ρ τ}
    {permitted : τ → η → Prop} {begin : τ} (related : σ → τ → Prop)
    (initial : related start begin)
    (matched : ∀ state event next shadow, Reaches step allowed start state →
      related state shadow → allowed state event →
      step state event = .ok next →
      ∃ last, Reaches other permitted shadow last ∧ related next last)
    (run : Reaches step allowed start state) :
    ∃ last, Reaches other permitted begin last ∧ related state last := by
  induction run with
  | refl => exact ⟨begin, .refl, initial⟩
  | tail run isAllowed stepped ih =>
      obtain ⟨shadow, before, relates⟩ := ih
      obtain ⟨last, after, relates⟩ :=
        matched _ _ _ _ run relates isAllowed stepped
      exact ⟨last, before.trans after, relates⟩

/-- Every event of the list is allowed when its turn comes, and none fails. -/
def Follows (step : σ → ε → Except π σ) (allowed : σ → ε → Prop) :
    σ → List ε → Prop
  | _, [] => True
  | state, event :: rest =>
      allowed state event ∧
        match step state event with
        | .ok next => Follows step allowed next rest
        | .error _ => False

instance Follows.decidable [∀ state event, Decidable (allowed state event)] :
    ∀ (state : σ) (events : List ε),
      Decidable (Follows step allowed state events)
  | _, [] => isTrue trivial
  | state, event :: rest =>
      match stepped : step state event with
      | .ok next =>
          have := Follows.decidable next rest
          decidable_of_iff (allowed state event ∧ Follows step allowed next rest)
            (by simp [Follows, stepped])
      | .error _ => isFalse (by simp [Follows, stepped])

/-- The state after a list of events; a failing event leaves it as it was. -/
def replay (step : σ → ε → Except π σ) : σ → List ε → σ
  | state, [] => state
  | state, event :: rest =>
      match step state event with
      | .ok next => replay step next rest
      | .error _ => state

theorem Follows.reaches {origin : σ} (events : List ε)
    (run : Reaches step allowed origin state)
    (follows : Follows step allowed state events) :
    Reaches step allowed origin (replay step state events) := by
  induction events generalizing state with
  | nil => exact run
  | cons event rest ih =>
      simp only [Follows] at follows
      cases stepped : step state event with
      | error failure => simp [stepped] at follows
      | ok next =>
          simp only [stepped] at follows
          simp only [replay, stepped]
          exact ih (run.tail follows.1 stepped) follows.2

def failure : Except π σ → Option π
  | .ok _ => none
  | .error reason => some reason

theorem eq_error_of_failure {result : Except π σ} {reason : π}
    (failed : failure result = some reason) : result = .error reason := by
  cases result with
  | ok next => simp [failure] at failed
  | error found => simpa [failure] using failed

theorem Follows.stepped {event : ε}
    (follows : Follows step allowed state [event]) :
    step state event = .ok (replay step state [event]) := by
  cases stepped : step state event with
  | ok next => simp [replay, stepped]
  | error failure => simp [Follows, stepped] at follows

end

end Malstrom.Data
