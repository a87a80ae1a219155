import Mathlib.Data.List.Basic

namespace Malstrom.Data

/-! A log with a durable copy which may lag behind the one in memory. -/

section

variable {α : Type}

structure Journal (α : Type) where
  durable : List α
  /-- What memory holds beyond the durable copy. -/
  pending : List α

/-- What becomes of the log: an item goes to the end of it, and the durable copy
is replaced by the whole log or is not; or memory is read anew. -/
inductive Write (α : Type) where
  | stored (item : α)
  | unstored (item : α)
  | reloaded

def Write.item? : Write α → Option α
  | .stored item | .unstored item => some item
  | .reloaded => none

namespace Journal

variable {journal : Journal α} {item : α}

def entries (journal : Journal α) : List α := journal.durable ++ journal.pending

def append (journal : Journal α) (item : α) : Journal α :=
  { journal with pending := journal.pending ++ [item] }

def store (journal : Journal α) : Journal α := ⟨journal.entries, []⟩

def reload (journal : Journal α) : Journal α := ⟨journal.durable, []⟩

def write (journal : Journal α) : Write α → Journal α
  | .stored item => (journal.append item).store
  | .unstored item => journal.append item
  | .reloaded => journal.reload

def run (journal : Journal α) (writes : List (Write α)) : Journal α :=
  writes.foldl write journal

/-- Memory and the durable copy have the same members and the same end. -/
def Agrees (journal : Journal α) : Prop :=
  (∀ item, item ∈ journal.entries ↔ item ∈ journal.durable) ∧
    journal.entries.getLast? = journal.durable.getLast?

@[simp] theorem entries_append (journal : Journal α) (item : α) :
    (journal.append item).entries = journal.entries ++ [item] := by
  simp [entries, append]

@[simp] theorem entries_store (journal : Journal α) :
    journal.store.entries = journal.entries := by
  simp [entries, store]

@[simp] theorem entries_reload (journal : Journal α) :
    journal.reload.entries = journal.durable := by
  simp [entries, reload]

@[simp] theorem durable_append (journal : Journal α) (item : α) :
    (journal.append item).durable = journal.durable := rfl

@[simp] theorem durable_store (journal : Journal α) :
    journal.store.durable = journal.entries := rfl

@[simp] theorem durable_reload (journal : Journal α) :
    journal.reload.durable = journal.durable := rfl

theorem mem_entries_of_durable (isDurable : item ∈ journal.durable) :
    item ∈ journal.entries :=
  List.mem_append_left _ isDurable

/-- Where the two differ: only by items of the durable copy, the last of which
ends that as well. -/
theorem agrees_iff : journal.Agrees ↔
    (∀ item ∈ journal.pending, item ∈ journal.durable) ∧
      ∀ last, journal.pending.getLast? = some last →
        journal.durable.getLast? = some last := by
  obtain ⟨durable, pending⟩ := journal
  constructor
  · rintro ⟨members, ends⟩
    refine ⟨fun item member => ?_, fun last isLast => ?_⟩
    · exact (members item).mp (List.mem_append_right _ member)
    · rw [← ends]
      simp [entries, isLast]
  · rintro ⟨members, ends⟩
    refine ⟨fun item => ?_, ?_⟩
    · constructor
      · intro member
        rcases List.mem_append.mp member with isDurable | isPending
        · exact isDurable
        · exact members item isPending
      · exact List.mem_append_left _
    · cases isLast : pending.getLast? with
      | none => simp [entries, List.getLast?_eq_none_iff.mp isLast]
      | some last =>
          have durableEnd : durable.getLast? = some last := ends last isLast
          simp [entries, isLast, durableEnd]

theorem agrees_of_nothing_pending (nothing : journal.pending = []) :
    journal.Agrees := by
  rw [agrees_iff, nothing]
  exact ⟨fun _ member => absurd member List.not_mem_nil, by simp⟩

/-- An item ahead of the durable copy shows unless it repeats the last one. -/
theorem Agrees.append_iff (agrees : journal.Agrees) :
    (journal.append item).Agrees ↔ journal.entries.getLast? = some item := by
  constructor
  · rintro ⟨-, ends⟩
    rw [entries_append, durable_append, ← agrees.2,
      List.getLast?_concat] at ends
    exact ends.symm
  · intro repeats
    refine ⟨fun other => ?_, ?_⟩
    · have member : item ∈ journal.durable :=
        (agrees.1 item).mp (List.mem_of_getLast? repeats)
      rw [entries_append, durable_append, List.mem_append, agrees.1,
        List.mem_singleton]
      constructor
      · rintro (before | rfl)
        · exact before
        · exact member
      · exact .inl
    · rw [entries_append, durable_append, List.getLast?_concat, ← agrees.2,
        repeats]

theorem durable_write (journal : Journal α) (write : Write α) :
    journal.durable <+: (journal.write write).durable := by
  cases write with
  | stored item =>
      exact List.prefix_append journal.durable (journal.pending ++ [item])
  | unstored item => exact List.prefix_rfl
  | reloaded => exact List.prefix_rfl

theorem durable_run (journal : Journal α) (writes : List (Write α)) :
    journal.durable <+: (journal.run writes).durable := by
  induction writes generalizing journal with
  | nil => exact List.prefix_rfl
  | cons write rest ih =>
      exact (durable_write journal write).trans (ih (journal.write write))

theorem pending_run {writes : List (Write α)}
    (stored : ∀ item, .unstored item ∉ writes) (nothing : journal.pending = []) :
    (journal.run writes).pending = [] := by
  induction writes generalizing journal with
  | nil => exact nothing
  | cons write rest ih =>
      apply ih fun item member => stored item (.tail _ member)
      cases write with
      | stored item => rfl
      | unstored item => exact absurd (.head _) (stored item)
      | reloaded => rfl

theorem mem_entries_write {write : Write α}
    (member : item ∈ (journal.write write).entries) :
    item ∈ journal.entries ∨ write.item? = some item := by
  cases write with
  | stored written | unstored written =>
      simp only [Journal.write, entries_store, entries_append, List.mem_append,
        List.mem_singleton] at member
      rcases member with before | rfl
      · exact .inl before
      · exact .inr rfl
  | reloaded =>
      simp only [Journal.write, entries_reload] at member
      exact .inl (mem_entries_of_durable member)

/-- What a log holds was there at the start or has been written to it. -/
theorem mem_entries_run {writes : List (Write α)}
    (member : item ∈ (journal.run writes).entries) :
    item ∈ journal.entries ∨ ∃ write ∈ writes, write.item? = some item := by
  induction writes generalizing journal with
  | nil => exact .inl member
  | cons write rest ih =>
      rcases ih member with before | ⟨later, isLater, wrote⟩
      · rcases mem_entries_write before with start | wrote
        · exact .inl start
        · exact .inr ⟨write, .head _, wrote⟩
      · exact .inr ⟨later, .tail _ isLater, wrote⟩

end Journal

end

end Malstrom.Data
