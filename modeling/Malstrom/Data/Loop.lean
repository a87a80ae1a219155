import Mathlib.Order.Basic

namespace Malstrom.Data

/-! A loop whose body may fail, with the number of tests of its condition
bounded. -/

section

variable {σ π : Type}

/-- `none` when the bound is used up. -/
def loop (again : σ → Bool) (body : Nat → σ → Except π σ) :
    Nat → Nat → σ → Option (Except π σ)
  | 0, _, _ => none
  | bound + 1, count, state =>
      if again state then
        match body count state with
        | .error failure => some (.error failure)
        | .ok next => loop again body bound (count + 1) next
      else some (.ok state)

variable {again : σ → Bool} {body : Nat → σ → Except π σ}

theorem loop_mono {bound larger : Nat} (enough : bound ≤ larger) {count : Nat}
    {state : σ} {result : Except π σ}
    (ends : loop again body bound count state = some result) :
    loop again body larger count state = some result := by
  induction bound generalizing larger count state with
  | zero => cases ends
  | succ bound ih =>
      obtain ⟨larger, rfl⟩ : ∃ more, larger = more + 1 :=
        ⟨larger - 1, by omega⟩
      simp only [loop] at ends ⊢
      split at ends
      next continues =>
        rw [if_pos continues]
        split at ends
        next failure failed => exact ends
        next next stepped => exact ih (by omega) ends
      next stops =>
        rw [if_neg stops]
        exact ends

/-- A loop ends when its body makes a measure smaller. -/
theorem loop_ends (holds : σ → Prop) (measure : σ → Nat)
    (smaller : ∀ count state next, holds state → again state = true →
      body count state = .ok next →
      holds next ∧ measure next < measure state)
    {state : σ} (initial : holds state) (count : Nat) :
    ∃ bound, (loop again body bound count state).isSome := by
  induction size : measure state using Nat.strongRecOn generalizing state count
    with
  | ind size ih =>
      cases continues : again state with
      | false => exact ⟨1, by simp [loop, continues]⟩
      | true =>
          cases stepped : body count state with
          | error failure => exact ⟨1, by simp [loop, continues, stepped]⟩
          | ok next =>
              obtain ⟨kept, less⟩ :=
                smaller count state next initial continues stepped
              obtain ⟨bound, ends⟩ :=
                ih (measure next) (size ▸ less) kept (count + 1) rfl
              exact ⟨bound + 1, by simpa [loop, continues, stepped] using ends⟩

/-- A loop never ends when its body neither fails nor makes its condition
false. -/
theorem loop_never (holds : σ → Prop)
    (stuck : ∀ count state, holds state → again state = true ∧
      ∃ next, body count state = .ok next ∧ holds next)
    {state : σ} (initial : holds state) (bound count : Nat) :
    loop again body bound count state = none := by
  induction bound generalizing state count with
  | zero => rfl
  | succ bound ih =>
      obtain ⟨continues, next, stepped, kept⟩ := stuck count state initial
      simp only [loop, continues, if_true, stepped]
      exact ih kept (count + 1)

/-- A loop does not fail when its body does not. -/
theorem loop_safe (holds : σ → Prop)
    (safe : ∀ count state, holds state →
      ∃ next, body count state = .ok next ∧ holds next)
    {state : σ} (initial : holds state) {bound count : Nat} {failure : π} :
    loop again body bound count state ≠ some (.error failure) := by
  induction bound generalizing state count with
  | zero => simp [loop]
  | succ bound ih =>
      obtain ⟨next, stepped, kept⟩ := safe count state initial
      simp only [loop, stepped]
      split
      next => exact ih kept
      next => simp

theorem loop_invariant (holds : σ → Prop)
    (preserved : ∀ count state next, holds state →
      body count state = .ok next → holds next)
    {state last : σ} (initial : holds state) {bound count : Nat}
    (ends : loop again body bound count state = some (.ok last)) :
    holds last := by
  induction bound generalizing state count with
  | zero => cases ends
  | succ bound ih =>
      simp only [loop] at ends
      split at ends
      next =>
        split at ends
        next => simp at ends
        next next stepped => exact ih (preserved _ _ _ initial stepped) ends
      next =>
        obtain rfl := by simpa using ends
        exact initial

/-- A loop which has ended does not go on. -/
theorem loop_done {state last : σ} {bound count : Nat}
    (ends : loop again body bound count state = some (.ok last)) :
    again last = false := by
  induction bound generalizing state count with
  | zero => cases ends
  | succ bound ih =>
      simp only [loop] at ends
      split at ends
      next =>
        split at ends
        next => simp at ends
        next => exact ih ends
      next stops =>
        obtain rfl := by simpa using ends
        simpa using stops

end

end Malstrom.Data
