import Mathlib.Data.List.Basic

namespace Malstrom.Data

/-! Histories in which nothing of value follows a final entry. -/

section

variable {μ : Type} (isFinal carries : μ → Bool)

/-- Behind a final entry nothing is carried. -/
def Sealed (history : List μ) : Prop :=
  history.Pairwise fun earlier later =>
    isFinal earlier = true → carries later = false

instance (history : List μ) : Decidable (Sealed isFinal carries history) :=
  inferInstanceAs (Decidable (history.Pairwise _))

variable {isFinal carries} {first second history : List μ} {entry : μ}

theorem Sealed.nil : Sealed isFinal carries [] := List.Pairwise.nil

/-- Without a final entry there is nothing to hold. -/
theorem sealed_of_unfinished
    (unfinished : ∀ entry ∈ history, isFinal entry = false) :
    Sealed isFinal carries history := by
  refine List.pairwise_of_forall_mem_list fun earlier member _ _ isFinal => ?_
  rw [unfinished earlier member] at isFinal
  cases isFinal

theorem sealed_append : Sealed isFinal carries (first ++ second) ↔
    Sealed isFinal carries first ∧ Sealed isFinal carries second ∧
      ((∃ final ∈ first, isFinal final = true) →
        ∀ later ∈ second, carries later = false) := by
  unfold Sealed
  rw [List.pairwise_append]
  refine and_congr Iff.rfl (and_congr Iff.rfl ⟨?_, ?_⟩)
  · rintro behind ⟨final, member, isFinal⟩ later inside
    exact behind final member later inside isFinal
  · intro behind earlier member later inside isFinal
    exact behind ⟨earlier, member, isFinal⟩ later inside

theorem Sealed.earlier (isSealed : Sealed isFinal carries (first ++ second)) :
    Sealed isFinal carries first :=
  (sealed_append.mp isSealed).1

/-- What follows a final entry is of no value. -/
theorem Sealed.behind (isSealed : Sealed isFinal carries (first ++ second))
    {final : μ} (member : final ∈ first) (final : isFinal final = true) :
    ∀ later ∈ second, carries later = false :=
  (sealed_append.mp isSealed).2.2 ⟨_, member, final⟩

theorem Sealed.push (isSealed : Sealed isFinal carries history)
    (unfinished : carries entry = true →
      ∀ earlier ∈ history, isFinal earlier = false) :
    Sealed isFinal carries (history ++ [entry]) := by
  refine sealed_append.mpr ⟨isSealed, List.pairwise_singleton _ _, ?_⟩
  rintro ⟨final, member, isFinal⟩ later inside
  rw [List.mem_singleton.mp inside]
  cases worth : carries entry with
  | false => rfl
  | true =>
      rw [unfinished worth final member] at isFinal
      cases isFinal

theorem Sealed.pushAll (isSealed : Sealed isFinal carries first)
    (worthless : ∀ later ∈ second, carries later = false) :
    Sealed isFinal carries (first ++ second) :=
  sealed_append.mpr ⟨isSealed,
    List.pairwise_of_forall_mem_list fun _ _ later member _ =>
      worthless later member, fun _ => worthless⟩

theorem Sealed.filter (isSealed : Sealed isFinal carries history)
    (keep : μ → Bool) : Sealed isFinal carries (history.filter keep) :=
  List.Pairwise.filter keep isSealed

/-- Only entries of value count, if the final ones are of value themselves. -/
theorem sealed_of_filter (worth : ∀ entry, isFinal entry = true →
    carries entry = true) (isSealed : Sealed isFinal carries
      (history.filter carries)) : Sealed isFinal carries history := by
  refine (List.pairwise_filter.mp isSealed).imp fun {earlier later} behind => ?_
  intro isFinal
  cases carried : carries later with
  | false => rfl
  | true =>
      rw [behind (worth earlier isFinal) carried isFinal] at carried
      cases carried

theorem Sealed.unfinished
    (isSealed : Sealed isFinal carries (history ++ [entry]))
    (worth : carries entry = true) :
    ∀ earlier ∈ history, isFinal earlier = false := by
  intro earlier member
  cases final : isFinal earlier with
  | false => rfl
  | true =>
      rw [isSealed.behind member final entry (List.mem_singleton_self entry)]
        at worth
      cases worth

end

end Malstrom.Data
