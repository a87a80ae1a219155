import Mathlib.Algebra.BigOperators.Group.Finset.Basic
import Mathlib.Data.List.Basic

namespace Malstrom.Data

/-! Histories which barriers divide, and sums over places between which things
move. -/

section

variable {μ ρ : Type} {isBarrier : μ → Bool} {payload : μ → Option ρ}

def beforeBarrier (isBarrier : μ → Bool) (payload : μ → Option ρ) :
    Nat → List μ → List ρ
  | 0, _ => []
  | _ + 1, [] => []
  | number + 1, message :: rest =>
      if isBarrier message then beforeBarrier isBarrier payload number rest
      else (payload message).toList ++
        beforeBarrier isBarrier payload (number + 1) rest

def afterBarrier (isBarrier : μ → Bool) (payload : μ → Option ρ) :
    Nat → List μ → List ρ
  | 0, messages => messages.filterMap payload
  | _ + 1, [] => []
  | number + 1, message :: rest =>
      if isBarrier message then afterBarrier isBarrier payload number rest
      else afterBarrier isBarrier payload (number + 1) rest

@[simp] theorem beforeBarrier_zero (messages : List μ) :
    beforeBarrier isBarrier payload 0 messages = [] := by
  cases messages <;> rfl

@[simp] theorem beforeBarrier_nil (number : Nat) :
    beforeBarrier isBarrier payload number [] = [] := by
  cases number <;> rfl

theorem beforeBarrier_append (number : Nat) (first second : List μ) :
    beforeBarrier isBarrier payload number (first ++ second) =
      beforeBarrier isBarrier payload number first ++
        beforeBarrier isBarrier payload (number - first.countP isBarrier)
          second := by
  induction first generalizing number with
  | nil => simp
  | cons message rest ih =>
      cases number with
      | zero => simp
      | succ number =>
          cases barrier : isBarrier message with
          | true => simp [beforeBarrier, barrier, ih, Nat.add_sub_add_right]
          | false => simp [beforeBarrier, barrier, ih]

theorem mem_of_mem_beforeBarrier {number : Nat} {messages : List μ}
    {carried : ρ}
    (early : carried ∈ beforeBarrier isBarrier payload number messages) :
    ∃ message ∈ messages, payload message = some carried := by
  induction messages generalizing number with
  | nil => simp at early
  | cons message rest ih =>
      have later {number : Nat}
          (early : carried ∈ beforeBarrier isBarrier payload number rest) :
          ∃ found ∈ message :: rest, payload found = some carried := by
        obtain ⟨found, member, carries⟩ := ih early
        exact ⟨found, .tail _ member, carries⟩
      cases number with
      | zero => simp at early
      | succ number =>
          rw [beforeBarrier] at early
          split at early
          · exact later early
          · rcases List.mem_append.mp early with now | after
            · exact ⟨message, .head _, Option.mem_toList.mp now⟩
            · exact later after

theorem beforeBarrier_of_silent {messages : List μ}
    (silent : ∀ message ∈ messages, payload message = none) (number : Nat) :
    beforeBarrier isBarrier payload number messages = [] := by
  induction messages generalizing number with
  | nil => simp
  | cons message rest ih =>
      have others := ih fun later member => silent later (by simp [member])
      cases number with
      | zero => simp
      | succ number => simp [beforeBarrier, silent message (by simp), others]

theorem beforeBarrier_of_few
    (empty : ∀ message, isBarrier message = true → payload message = none)
    {number : Nat} {messages : List μ}
    (few : messages.countP isBarrier < number) :
    beforeBarrier isBarrier payload number messages =
      messages.filterMap payload := by
  induction messages generalizing number with
  | nil => simp
  | cons message rest ih =>
      cases number with
      | zero => cases few
      | succ number =>
          cases barrier : isBarrier message with
          | true =>
              rw [List.countP_cons_of_pos barrier] at few
              rw [beforeBarrier, if_pos barrier, ih (Nat.lt_of_succ_lt_succ few),
                List.filterMap_cons_none (empty message barrier)]
          | false =>
              rw [List.countP_cons_of_neg (by simp [barrier])] at few
              rw [beforeBarrier, if_neg (by simp [barrier]), ih few]
              cases carries : payload message with
              | none => rw [List.filterMap_cons_none carries]; rfl
              | some carried => rw [List.filterMap_cons_some carries]; rfl

theorem mem_beforeBarrier_mono {less more : Nat} {messages : List μ}
    {carried : ρ} (atMost : less ≤ more)
    (early : carried ∈ beforeBarrier isBarrier payload less messages) :
    carried ∈ beforeBarrier isBarrier payload more messages := by
  induction messages generalizing less more with
  | nil => simp at early
  | cons message rest ih =>
      cases less with
      | zero => simp at early
      | succ less =>
          obtain ⟨more, rfl⟩ := Nat.exists_eq_add_of_lt atMost
          rw [beforeBarrier] at early ⊢
          split at early
          next barrier =>
            rw [if_pos barrier]
            exact ih (Nat.le_add_right _ _) early
          next message =>
            rw [if_neg message]
            rcases List.mem_append.mp early with now | later
            · exact List.mem_append_left _ now
            · exact List.mem_append_right _ (ih (by omega) later)

/-- What comes behind a barrier does not change what is before it. -/
theorem beforeBarrier_of_passed {number : Nat} {first : List μ}
    (passed : number ≤ first.countP isBarrier) (second : List μ) :
    beforeBarrier isBarrier payload number (first ++ second) =
      beforeBarrier isBarrier payload number first := by
  rw [beforeBarrier_append, Nat.sub_eq_zero_of_le passed, beforeBarrier_zero,
    List.append_nil]

/-- A barrier which comes last has everything before it. -/
theorem beforeBarrier_last
    (empty : ∀ message, isBarrier message = true → payload message = none)
    {number : Nat} {messages : List μ} {last : μ}
    (barrier : isBarrier last = true)
    (count : messages.countP isBarrier = number) :
    beforeBarrier isBarrier payload (number + 1) (messages ++ [last]) =
      messages.filterMap payload := by
  rw [beforeBarrier_append, beforeBarrier_of_few empty (by omega), count,
    Nat.add_sub_cancel_left, beforeBarrier, if_pos barrier, beforeBarrier_zero,
    List.append_nil]

/-- A barrier divides the payloads of a history in two. -/
theorem beforeBarrier_append_afterBarrier
    (empty : ∀ message, isBarrier message = true → payload message = none)
    (number : Nat) (messages : List μ) :
    beforeBarrier isBarrier payload number messages ++
      afterBarrier isBarrier payload number messages =
        messages.filterMap payload := by
  induction messages generalizing number with
  | nil => cases number <;> rfl
  | cons message rest ih =>
      cases number with
      | zero => simp [afterBarrier]
      | succ number =>
          cases barrier : isBarrier message with
          | true =>
              simp [beforeBarrier, afterBarrier, barrier, ih, empty _ barrier]
          | false =>
              cases carries : payload message <;>
                simp [beforeBarrier, afterBarrier, barrier, ih, carries]

end

section

variable {ι M : Type} [DecidableEq ι] [AddCommMonoid M] {places : Finset ι}
  {before after : ι → M} {place : ι}

theorem sum_gain (member : place ∈ places) {gain : M}
    (others : ∀ other ∈ places, other ≠ place → after other = before other)
    (gains : after place = before place + gain) :
    ∑ other ∈ places, after other = ∑ other ∈ places, before other + gain := by
  rw [← Finset.add_sum_erase places after member,
    ← Finset.add_sum_erase places before member, gains, add_assoc,
    add_comm gain, ← add_assoc]
  congr 2
  exact Finset.sum_congr rfl fun other inside =>
    others other (Finset.mem_of_mem_erase inside) (Finset.ne_of_mem_erase inside)

end

end Malstrom.Data
