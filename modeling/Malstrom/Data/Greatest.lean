import Mathlib.Data.List.Nodup
import Mathlib.Order.Lattice

namespace Malstrom.Data

/-! The last of the elements of a list whose key is the greatest. -/

section

variable {α β : Type} [LinearOrder β] {key : α → β}

def lastGreatest (key : α → β) (chosen : α) (items : List α) : α :=
  items.foldl (fun chosen next =>
    if key chosen ≤ key next then next else chosen) chosen

/-- No key is greater, and none behind it is as great. -/
def LastGreatest (key : α → β) (items : List α) (chosen : α) : Prop :=
  ∃ before after, items = before ++ chosen :: after ∧
    (∀ item ∈ before, key item ≤ key chosen) ∧
      ∀ item ∈ after, key item < key chosen

theorem LastGreatest.mem {items : List α} {chosen : α}
    (greatest : LastGreatest key items chosen) : chosen ∈ items := by
  obtain ⟨before, after, rfl, -⟩ := greatest
  simp

variable {first next chosen : α} {rest : List α}

theorem LastGreatest.head_le
    (greatest : LastGreatest key (first :: rest) chosen) :
    key first ≤ key chosen := by
  obtain ⟨before, after, split, most, less⟩ := greatest
  cases before with
  | nil => exact le_of_eq (congrArg key (List.cons.inj split).1)
  | cons head tail => exact (List.cons.inj split).1 ▸ most head (.head _)

theorem LastGreatest.cons_le
    (greatest : LastGreatest key (next :: rest) chosen)
    (reached : key first ≤ key next) :
    LastGreatest key (first :: next :: rest) chosen := by
  have above := reached.trans greatest.head_le
  obtain ⟨before, after, split, most, less⟩ := greatest
  refine ⟨first :: before, after, congrArg _ split, ?_, less⟩
  intro item member
  cases member with
  | head => exact above
  | tail _ later => exact most item later

theorem LastGreatest.skip_lt
    (greatest : LastGreatest key (first :: rest) chosen)
    (smaller : key next < key first) :
    LastGreatest key (first :: next :: rest) chosen := by
  obtain ⟨before, after, split, most, less⟩ := greatest
  cases before with
  | nil =>
      obtain ⟨rfl, rfl⟩ := List.cons.inj split
      refine ⟨[], next :: rest, rfl, by simp, ?_⟩
      intro item member
      cases member with
      | head => exact smaller
      | tail _ later => exact less item later
  | cons head tail =>
      obtain ⟨rfl, rfl⟩ := List.cons.inj split
      have above := most first (.head _)
      refine ⟨first :: next :: tail, after, rfl, ?_, less⟩
      intro item member
      rcases member with _ | ⟨_, _ | ⟨_, behind⟩⟩
      · exact above
      · exact smaller.le.trans above
      · exact most item (.tail _ behind)

theorem lastGreatest_spec (first : α) (items : List α) :
    LastGreatest key (first :: items) (lastGreatest key first items) := by
  induction items generalizing first with
  | nil => exact ⟨[], [], rfl, by simp, by simp⟩
  | cons next rest induction =>
      unfold lastGreatest
      rw [List.foldl_cons]
      split
      next reached => exact (induction next).cons_le reached
      next above => exact (induction first).skip_lt (lt_of_not_ge above)

theorem LastGreatest.unique {items : List α} {one other : α}
    (isOne : LastGreatest key items one)
    (isOther : LastGreatest key items other) : one = other := by
  obtain ⟨before, after, rfl, most, less⟩ := isOne
  obtain ⟨before', after', split, most', less'⟩ := isOther
  rcases List.append_eq_append_iff.mp split with
    ⟨between, rfl, rest⟩ | ⟨between, rfl, rest⟩
  · cases between with
    | nil => exact (List.cons.inj rest).1
    | cons head tail =>
        obtain ⟨rfl, rfl⟩ := List.cons.inj rest
        exact absurd (less other (by simp)) (not_lt.mpr (most' one (by simp)))
  · cases between with
    | nil => exact (List.cons.inj rest).1.symm
    | cons head tail =>
        obtain ⟨rfl, rfl⟩ := List.cons.inj rest
        exact absurd (less' one (by simp)) (not_lt.mpr (most other (by simp)))

/-- Where others are left out the choice stays the same. -/
theorem LastGreatest.sublist {fewer items : List α} {chosen : α}
    (nodup : items.Nodup) (within : fewer.Sublist items)
    (greatest : LastGreatest key items chosen) (member : chosen ∈ fewer) :
    LastGreatest key fewer chosen := by
  obtain ⟨before, after, rfl, most, less⟩ := greatest
  obtain ⟨first, last, rfl, inBefore, inAfter⟩ := List.sublist_append_iff.mp within
  have fresh : chosen ∉ before ∧ chosen ∉ after := by
    have distinct := List.nodup_middle.mp nodup
    simpa using (List.nodup_cons.mp distinct).1
  have inLast : chosen ∈ last := (List.mem_append.mp member).resolve_left
    fun inFirst => fresh.1 (inBefore.subset inFirst)
  cases inAfter with
  | cons _ skipped => exact absurd (skipped.subset inLast) fresh.2
  | cons_cons _ kept =>
      exact ⟨first, _, rfl, fun item inside => most item (inBefore.subset inside),
        fun item inside => less item (kept.subset inside)⟩

end

end Malstrom.Data
