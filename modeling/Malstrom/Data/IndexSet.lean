import Mathlib.Data.List.Nodup
import Mathlib.Data.List.Basic

/-! Insertion-ordered collections.  The order is part of the value: two sets
with the same members in another order are different values. -/

namespace Malstrom.Data

structure IndexSet (α : Type) where
  items : List α
  nodup : items.Nodup
  deriving DecidableEq

namespace IndexSet

variable {α : Type}

instance : Membership α (IndexSet α) := ⟨fun set item => item ∈ set.items⟩

theorem mem_def {set : IndexSet α} {item : α} :
    item ∈ set ↔ item ∈ set.items := Iff.rfl

instance [DecidableEq α] (item : α) (set : IndexSet α) :
    Decidable (item ∈ set) :=
  inferInstanceAs (Decidable (item ∈ set.items))

def empty : IndexSet α := ⟨[], List.nodup_nil⟩

instance : Inhabited (IndexSet α) := ⟨empty⟩

@[simp] theorem not_mem_empty (item : α) : item ∉ (empty : IndexSet α) :=
  List.not_mem_nil

def isEmpty (set : IndexSet α) : Bool := set.items.isEmpty

theorem isEmpty_iff (set : IndexSet α) :
    set.isEmpty = true ↔ ∀ item, item ∉ set := by
  simp only [isEmpty, List.isEmpty_iff, List.eq_nil_iff_forall_not_mem, mem_def]

/-- A new member goes to the end; a present one keeps its place. -/
def insert [DecidableEq α] (set : IndexSet α) (item : α) : IndexSet α :=
  if member : item ∈ set.items then set
  else ⟨set.items ++ [item], by
    rw [List.nodup_append]
    refine ⟨set.nodup, List.nodup_singleton item, ?_⟩
    intro left leftMember right rightMember same
    rw [List.mem_singleton] at rightMember
    exact member (rightMember ▸ same ▸ leftMember)⟩

@[simp] theorem mem_insert [DecidableEq α] {set : IndexSet α}
    {item candidate : α} :
    candidate ∈ set.insert item ↔ candidate ∈ set ∨ candidate = item := by
  unfold insert
  split
  next member =>
    constructor
    · exact Or.inl
    · rintro (present | rfl)
      · exact present
      · exact member
  next => simp [mem_def]

def insertAll [DecidableEq α] (set : IndexSet α) (items : List α) :
    IndexSet α :=
  items.foldl insert set

@[simp] theorem mem_insertAll [DecidableEq α] {set : IndexSet α}
    {items : List α} {candidate : α} :
    candidate ∈ set.insertAll items ↔ candidate ∈ set ∨ candidate ∈ items := by
  induction items generalizing set with
  | nil => simp [insertAll]
  | cons head tail ih =>
      have step : set.insertAll (head :: tail) =
          (set.insert head).insertAll tail := rfl
      rw [step, ih, mem_insert, List.mem_cons, or_assoc]

def ofList [DecidableEq α] (items : List α) : IndexSet α :=
  empty.insertAll items

@[simp] theorem mem_ofList [DecidableEq α] {items : List α} {candidate : α} :
    candidate ∈ ofList items ↔ candidate ∈ items := by
  simp [ofList]

theorem items_insertAll [DecidableEq α] {set : IndexSet α} {items : List α}
    (nodup : (set.items ++ items).Nodup) :
    (set.insertAll items).items = set.items ++ items := by
  induction items generalizing set with
  | nil => exact (List.append_nil _).symm
  | cons head tail ih =>
      have fresh : head ∉ set.items := fun member =>
        (List.nodup_append.mp nodup).2.2 head member head (by simp) rfl
      have inserted : (set.insert head).items = set.items ++ [head] := by
        simp [insert, fresh]
      have step : set.insertAll (head :: tail) =
          (set.insert head).insertAll tail := rfl
      rw [step, ih, inserted, List.append_assoc, List.singleton_append]
      rwa [inserted, List.append_assoc]

theorem insertAll_append [DecidableEq α] (set : IndexSet α)
    (first second : List α) :
    set.insertAll (first ++ second) =
      (set.insertAll first).insertAll second :=
  List.foldl_append

theorem insertAll_of_subset [DecidableEq α] {set : IndexSet α}
    {items : List α} (present : ∀ item ∈ items, item ∈ set) :
    set.insertAll items = set := by
  induction items with
  | nil => rfl
  | cons head tail ih =>
      have inserted : set.insert head = set := by
        rw [insert, dif_pos (mem_def.mp (present head (by simp)))]
      have step : set.insertAll (head :: tail) =
          (set.insert head).insertAll tail := rfl
      rw [step, inserted]
      exact ih fun item member => present item (by simp [member])

theorem items_ofList [DecidableEq α] {items : List α} (nodup : items.Nodup) :
    (ofList items).items = items :=
  items_insertAll nodup

theorem ext_items {set other : IndexSet α} (same : set.items = other.items) :
    set = other := by
  cases set
  cases other
  subst same
  rfl

theorem ofList_items [DecidableEq α] (set : IndexSet α) :
    ofList set.items = set :=
  ext_items (items_ofList set.nodup)

def union [DecidableEq α] (set other : IndexSet α) : IndexSet α :=
  set.insertAll other.items

@[simp] theorem mem_union [DecidableEq α] {set other : IndexSet α}
    {candidate : α} :
    candidate ∈ set.union other ↔ candidate ∈ set ∨ candidate ∈ other :=
  mem_insertAll

/-- Take the last member. -/
def pop (set : IndexSet α) : Option (α × IndexSet α) :=
  set.items.getLast?.map fun last =>
    (last, ⟨set.items.dropLast, set.nodup.sublist (List.dropLast_sublist _)⟩)

theorem pop_eq_none {set : IndexSet α} (popped : set.pop = none) :
    ∀ item, item ∉ set := by
  intro item member
  have noItems : set.items = [] := by
    simpa [pop, List.getLast?_eq_none_iff] using popped
  rw [mem_def, noItems] at member
  exact List.not_mem_nil member

theorem pop_eq_some {set rest : IndexSet α} {last : α}
    (popped : set.pop = some (last, rest)) :
    (∀ item, item ∈ set ↔ item ∈ rest ∨ item = last) ∧ last ∉ rest := by
  simp only [pop, Option.map_eq_some_iff, Prod.mk.injEq] at popped
  obtain ⟨found, foundEquation, rfl, rfl⟩ := popped
  have split := List.dropLast_append_getLast? found foundEquation
  constructor
  · intro item
    have parts : item ∈ set.items ↔ item ∈ set.items.dropLast ++ [found] := by
      rw [split]
    simpa [mem_def] using parts
  · intro member
    have nodup := set.nodup
    rw [← split, List.nodup_append] at nodup
    exact nodup.2.2 found member found (List.mem_singleton_self found) rfl

theorem length_pop {set rest : IndexSet α} {last : α}
    (popped : set.pop = some (last, rest)) :
    set.items.length = rest.items.length + 1 := by
  simp only [pop, Option.map_eq_some_iff, Prod.mk.injEq] at popped
  obtain ⟨found, isLast, rfl, rfl⟩ := popped
  have split := congrArg List.length (List.dropLast_append_getLast? found isLast)
  simpa using split.symm

def difference [DecidableEq α] (set other : IndexSet α) : IndexSet α :=
  ⟨set.items.filter fun item => decide (item ∉ other),
    set.nodup.filter _⟩

@[simp] theorem mem_difference [DecidableEq α] {set other : IndexSet α}
    {candidate : α} :
    candidate ∈ set.difference other ↔ candidate ∈ set ∧ candidate ∉ other := by
  simp [difference, mem_def]

def retain (set : IndexSet α) (keep : α → Bool) : IndexSet α :=
  ⟨set.items.filter keep, set.nodup.filter _⟩

@[simp] theorem mem_retain {set : IndexSet α} {keep : α → Bool}
    {candidate : α} :
    candidate ∈ set.retain keep ↔ candidate ∈ set ∧ keep candidate = true := by
  simp [retain, mem_def]

end IndexSet

end Malstrom.Data
