import Malstrom.Data.Sealed

namespace Malstrom.Data

/-! Histories whose last relevant entry is one that closes them. -/

section

variable {μ : Type} (relevant closing : μ → Bool)

def Closed (history : List μ) : Prop :=
  ∃ front last back, history = front ++ last :: back ∧ closing last = true ∧
    ∀ entry ∈ back, relevant entry = false

variable {relevant closing} {front back history : List μ} {last : μ}

theorem not_closed_nil : ¬ Closed relevant closing [] := by
  rintro ⟨front, last, back, split, -⟩
  exact List.append_ne_nil_of_right_ne_nil front (by simp) split.symm

theorem Closed.closes (closed : Closed relevant closing history) :
    ∃ entry ∈ history, closing entry = true := by
  obtain ⟨front, last, back, rfl, closes, -⟩ := closed
  exact ⟨last, by simp, closes⟩

/-- A history ends closed if a closing entry comes last. -/
theorem closed_concat (closes : closing last = true) :
    Closed relevant closing (front ++ [last]) :=
  ⟨front, last, [], rfl, closes, by simp⟩

theorem Closed.append (closed : Closed relevant closing front)
    (irrelevant : ∀ entry ∈ back, relevant entry = false) :
    Closed relevant closing (front ++ back) := by
  obtain ⟨before, last, after, rfl, closes, quiet⟩ := closed
  refine ⟨before, last, after ++ back, by simp, closes, fun entry member => ?_⟩
  rcases List.mem_append.mp member with earlier | later
  · exact quiet entry earlier
  · exact irrelevant entry later

/-- What follows without a closing entry is irrelevant. -/
theorem Closed.split (closed : Closed relevant closing (front ++ back))
    (unclosed : ∀ entry ∈ back, closing entry = false) :
    Closed relevant closing front ∧
      ∀ entry ∈ back, relevant entry = false := by
  obtain ⟨before, last, after, split, closes, quiet⟩ := closed
  have elsewhere : last ∉ back := by
    intro member
    rw [unclosed last member] at closes
    cases closes
  rcases List.append_eq_append_iff.mp split with
    ⟨middle, -, tail⟩ | ⟨middle, rfl, tail⟩
  · exact absurd (tail ▸ List.mem_append_right middle (.head after)) elsewhere
  · cases middle with
    | nil =>
        obtain rfl : last :: after = back := tail
        exact absurd (.head after) elsewhere
    | cons head rest =>
        obtain ⟨rfl, rfl⟩ := List.cons.inj tail
        refine ⟨⟨before, last, rest, rfl, closes, fun entry member => ?_⟩,
          fun entry member => ?_⟩
        · exact quiet entry (List.mem_append_left back member)
        · exact quiet entry (List.mem_append_right rest member)

theorem Closed.ends (closed : Closed relevant closing (front ++ [last]))
    (isRelevant : relevant last = true) : closing last = true := by
  cases closes : closing last with
  | true => rfl
  | false =>
      have quiet := (closed.split (by simpa using closes)).2 last (.head [])
      rw [isRelevant] at quiet
      cases quiet

theorem Sealed.closed (isSealed : Sealed closing relevant history)
    (member : last ∈ history) (closes : closing last = true) :
    Closed relevant closing history := by
  obtain ⟨front, back, rfl⟩ := List.append_of_mem member
  refine ⟨front, last, back, rfl, closes, ?_⟩
  rw [List.append_cons] at isSealed
  exact isSealed.behind (List.mem_append_right front (.head [])) closes

theorem Closed.filter {test : μ → Bool}
    (closed : Closed relevant closing history)
    (keeps : ∀ entry, closing entry = true → test entry = true) :
    Closed relevant closing (history.filter test) := by
  obtain ⟨front, last, back, rfl, closes, quiet⟩ := closed
  refine ⟨front.filter test, last, back.filter test, ?_, closes, ?_⟩
  · rw [List.filter_append, List.filter_cons_of_pos (keeps last closes)]
  · exact fun entry member => quiet entry (List.mem_of_mem_filter member)

end

end Malstrom.Data
