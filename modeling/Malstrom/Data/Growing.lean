import Mathlib.Data.List.Basic
import Mathlib.Order.Lattice

namespace Malstrom.Data

/-! Lists which grow at their end. -/

theorem pairwise_push {α : Type} [LinearOrder α] {items : List α} {next : α} :
    (items ++ [next]).Pairwise (· < ·) ↔
      items.Pairwise (· < ·) ∧ ∀ last ∈ items.getLast?, last < next := by
  rw [List.pairwise_append]
  constructor
  · rintro ⟨rising, -, above⟩
    exact ⟨rising, fun last isLast => above last
      (List.mem_of_getLast? isLast) next (List.mem_singleton_self _)⟩
  · rintro ⟨rising, above⟩
    refine ⟨rising, List.pairwise_singleton _ _, ?_⟩
    intro item member later isLater
    obtain rfl := List.mem_singleton.mp isLater
    rcases List.eq_nil_or_concat items with rfl | ⟨before, last, rfl⟩
    · cases member
    · have lower := above last (by simp)
      rw [List.concat_eq_append] at rising member
      rcases List.mem_append.mp member with earlier | isLast
      · have ordered := (List.pairwise_append.mp rising).2.2
        exact (ordered item earlier last (.head _)).trans lower
      · obtain rfl := List.mem_singleton.mp isLast
        exact lower

section

variable {α : Type} {holds : List α → α → Prop} {items : List α} {next : α}

/-- At every item, after those before it. -/
def AtEvery (holds : List α → α → Prop) (items : List α) : Prop :=
  ∀ before item after, items = before ++ item :: after → holds before item

@[simp] theorem atEvery_nil : AtEvery holds [] := by
  intro before item after split
  cases before <;> cases split

theorem atEvery_push : AtEvery holds (items ++ [next]) ↔
    AtEvery holds items ∧ holds items next := by
  constructor
  · intro every
    refine ⟨fun before item after split => ?_, every items next [] rfl⟩
    apply every before item (after ++ [next])
    rw [split, List.append_assoc, List.cons_append]
  · rintro ⟨every, last⟩ before item after split
    rcases List.eq_nil_or_concat after with rfl | ⟨more, final, rfl⟩
    · obtain ⟨rfl, isNext⟩ := List.append_inj' split rfl
      obtain rfl := List.head_eq_of_cons_eq isNext
      exact last
    · apply every before item more
      rw [List.concat_eq_append, ← List.cons_append, ← List.append_assoc]
        at split
      exact (List.append_inj' split rfl).1

end

end Malstrom.Data
