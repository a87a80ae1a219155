import Mathlib.Data.List.Nodup
import Mathlib.Data.List.Perm.Basic
import Malstrom.Data.IndexSet

namespace Malstrom.Data

/-- Removal of every entry `drop` selects, each hole filled by the last
entry of the list. -/
def swapRemoveList (drop : α → Bool) : List α → List α
  | [] => []
  | head :: tail =>
      if drop head then
        match tail.getLast? with
        | none => []
        | some last => last :: tail.dropLast
      else
        head :: swapRemoveList drop tail

/-- Where at most one entry is selected, filling the hole from the end only
permutes what is left. -/
theorem swapRemoveList_perm (drop : α → Bool) (items : List α)
    (unique : items.Pairwise fun left right =>
      drop left = true → drop right = false) :
    List.Perm (swapRemoveList drop items) (items.filter fun item => !drop item) := by
  induction items with
  | nil => rfl
  | cons head tail ih =>
      rw [List.pairwise_cons] at unique
      cases selected : drop head with
      | false =>
          simp only [swapRemoveList, selected, Bool.false_eq_true, if_false,
            Bool.not_false, List.filter_cons_of_pos]
          exact (ih unique.2).cons head
      | true =>
          have keep : tail.filter (fun item => !drop item) = tail := by
            rw [List.filter_eq_self]
            intro item member
            simp [unique.1 item member selected]
          simp only [swapRemoveList, selected, if_true, Bool.not_true,
            Bool.false_eq_true, not_false_iff, List.filter_cons_of_neg, keep]
          cases lastEquation : tail.getLast? with
          | none => simp [List.getLast?_eq_none_iff.mp lastEquation]
          | some last =>
              have split := List.dropLast_append_getLast? last lastEquation
              have moved := List.perm_append_singleton last tail.dropLast
              rw [split] at moved
              exact moved.symm

/-- What stands ahead of the selected entries stays as it is. -/
theorem swapRemoveList_append (drop : α → Bool) {front back : List α}
    (kept : ∀ item ∈ front, drop item = false) :
    swapRemoveList drop (front ++ back) = front ++ swapRemoveList drop back := by
  induction front with
  | nil => rfl
  | cons head tail ih =>
      rw [List.forall_mem_cons] at kept
      simp only [List.cons_append, swapRemoveList, kept.1, Bool.false_eq_true,
        if_false, ih kept.2]

theorem map_swapRemoveList (transform : α → β) (drop : β → Bool)
    (items : List α) :
    (swapRemoveList (fun item => drop (transform item)) items).map transform =
      swapRemoveList drop (items.map transform) := by
  induction items with
  | nil => rfl
  | cons head tail ih =>
      simp only [List.map_cons, swapRemoveList]
      split
      · rw [List.getLast?_map]
        cases tail.getLast? <;> simp
      · rw [List.map_cons, ih]

structure IndexMap (κ ν : Type) where
  entries : List (κ × ν)
  nodup : (entries.map Prod.fst).Nodup
  deriving DecidableEq

namespace IndexMap

variable {κ ν : Type}

def empty : IndexMap κ ν := ⟨[], List.nodup_nil⟩

instance : Inhabited (IndexMap κ ν) := ⟨empty⟩

def keys (map : IndexMap κ ν) : List κ := map.entries.map Prod.fst

def values (map : IndexMap κ ν) : List ν := map.entries.map Prod.snd

def keySet (map : IndexMap κ ν) : IndexSet κ := ⟨map.keys, map.nodup⟩

instance : Membership κ (IndexMap κ ν) := ⟨fun map key => key ∈ map.keys⟩

theorem mem_def {map : IndexMap κ ν} {key : κ} :
    key ∈ map ↔ key ∈ map.keys := Iff.rfl

instance [DecidableEq κ] (key : κ) (map : IndexMap κ ν) :
    Decidable (key ∈ map) :=
  inferInstanceAs (Decidable (key ∈ map.keys))

@[simp] theorem not_mem_empty (key : κ) : key ∉ (empty : IndexMap κ ν) :=
  List.not_mem_nil

variable [DecidableEq κ]

def get? (map : IndexMap κ ν) (key : κ) : Option ν :=
  (map.entries.find? fun entry => decide (entry.1 = key)).map Prod.snd

@[simp] theorem get?_empty (key : κ) :
    (empty : IndexMap κ ν).get? key = none := rfl

theorem get?_eq_some {map : IndexMap κ ν} {key : κ} {value : ν} :
    map.get? key = some value ↔ (key, value) ∈ map.entries := by
  obtain ⟨entries, nodup⟩ := map
  induction entries with
  | nil => simp [get?]
  | cons head tail ih =>
      have headFresh : head.1 ∉ tail.map Prod.fst := (List.nodup_cons.mp nodup).1
      have tailNodup := (List.nodup_cons.mp nodup).2
      by_cases same : head.1 = key
      · have notLater : (key, value) ∉ tail := by
          intro member
          exact headFresh (same ▸ List.mem_map_of_mem member)
        subst same
        obtain ⟨headKey, headValue⟩ := head
        simp only [get?, List.find?_cons_of_pos, decide_true, Option.map_some,
          Option.some.injEq, List.mem_cons, Prod.mk.injEq, true_and, notLater,
          or_false]
        exact eq_comm
      · have different : (key, value) ≠ head := by
          intro equal
          exact same (by rw [← equal])
        have later := ih tailNodup
        simpa [get?, same, different] using later

theorem get?_isSome {map : IndexMap κ ν} {key : κ} :
    (map.get? key).isSome = true ↔ key ∈ map := by
  simp [get?, mem_def, keys]

theorem mem_of_get?_eq_some {map : IndexMap κ ν} {key : κ} {value : ν}
    (found : map.get? key = some value) : key ∈ map :=
  get?_isSome.mp (by rw [found]; rfl)

theorem get?_eq_none {map : IndexMap κ ν} {key : κ} :
    map.get? key = none ↔ key ∉ map := by
  rw [← get?_isSome, Option.isSome_iff_ne_none, not_not]

theorem exists_get?_of_mem {map : IndexMap κ ν} {key : κ}
    (member : key ∈ map) : ∃ value, map.get? key = some value :=
  Option.isSome_iff_exists.mp (get?_isSome.mpr member)

/-- A present key keeps its place and takes the new value. -/
def insert (map : IndexMap κ ν) (key : κ) (value : ν) : IndexMap κ ν :=
  if member : key ∈ map then
    ⟨map.entries.map fun entry => if entry.1 = key then (key, value) else entry, by
      have sameKeys : (map.entries.map fun entry =>
          if entry.1 = key then (key, value) else entry).map Prod.fst =
          map.entries.map Prod.fst := by
        rw [List.map_map]
        apply List.map_congr_left
        intro entry _
        by_cases same : entry.1 = key <;> simp [same]
      rw [sameKeys]
      exact map.nodup⟩
  else
    ⟨map.entries ++ [(key, value)], by
      rw [List.map_append, List.nodup_append]
      refine ⟨map.nodup, List.nodup_singleton _, ?_⟩
      intro left leftMember right rightMember same
      rw [List.map_singleton, List.mem_singleton] at rightMember
      rw [same, rightMember] at leftMember
      exact member leftMember⟩

theorem keys_insert (map : IndexMap κ ν) (key : κ) (value : ν) :
    (map.insert key value).keys =
      if key ∈ map then map.keys else map.keys ++ [key] := by
  unfold insert
  split
  next member =>
    simp only [keys, List.map_map]
    apply List.map_congr_left
    intro entry _
    by_cases same : entry.1 = key <;> simp [same]
  next => simp [keys]

@[simp] theorem mem_insert {map : IndexMap κ ν} {key candidate : κ}
    {value : ν} :
    candidate ∈ map.insert key value ↔ candidate ∈ map ∨ candidate = key := by
  rw [mem_def, keys_insert]
  split
  next member =>
    constructor
    · exact Or.inl
    · rintro (present | rfl)
      · exact present
      · exact member
  next => simp [mem_def]

theorem get?_insert (map : IndexMap κ ν) (key candidate : κ) (value : ν) :
    (map.insert key value).get? candidate =
      if candidate = key then some value else map.get? candidate := by
  ext found
  rw [get?_eq_some]
  unfold insert
  split
  next member =>
    simp only [List.mem_map]
    constructor
    · rintro ⟨entry, entryMember, entryEquation⟩
      by_cases same : entry.1 = key
      · simp only [same, if_true, Prod.mk.injEq] at entryEquation
        simp [entryEquation.1.symm, entryEquation.2]
      · simp only [same, if_false] at entryEquation
        subst entryEquation
        simpa [same, get?_eq_some] using entryMember
    · intro lookup
      by_cases same : candidate = key
      · obtain ⟨old, oldLookup⟩ := exists_get?_of_mem member
        refine ⟨(key, old), get?_eq_some.mp oldLookup, ?_⟩
        simpa [same] using lookup
      · refine ⟨(candidate, found), ?_, by simp [same]⟩
        simpa [same, get?_eq_some] using lookup
  next absent =>
    by_cases same : candidate = key
    · subst same
      have notOld : (candidate, found) ∉ map.entries := fun old =>
        absent (mem_of_get?_eq_some (get?_eq_some.mpr old))
      simp [notOld, eq_comm]
    · simp [same, get?_eq_some]

theorem get?_insert_self (map : IndexMap κ ν) (key : κ) (value : ν) :
    (map.insert key value).get? key = some value := by
  rw [get?_insert, if_pos rfl]

theorem get?_insert_of_ne (map : IndexMap κ ν) {key candidate : κ}
    (value : ν) (different : candidate ≠ key) :
    (map.insert key value).get? candidate = map.get? candidate := by
  rw [get?_insert, if_neg different]

def modify (map : IndexMap κ ν) (key : κ) (change : ν → ν) : IndexMap κ ν :=
  ⟨map.entries.map fun entry =>
      if entry.1 = key then (entry.1, change entry.2) else entry, by
    have sameKeys : (map.entries.map fun entry =>
        if entry.1 = key then (entry.1, change entry.2) else entry).map Prod.fst =
        map.entries.map Prod.fst := by
      rw [List.map_map]
      apply List.map_congr_left
      intro entry _
      by_cases same : entry.1 = key <;> simp [same]
    rw [sameKeys]
    exact map.nodup⟩

@[simp] theorem mem_modify {map : IndexMap κ ν} {key candidate : κ}
    {change : ν → ν} :
    candidate ∈ map.modify key change ↔ candidate ∈ map := by
  have sameKeys : (map.modify key change).keys = map.keys := by
    simp only [keys, modify, List.map_map]
    apply List.map_congr_left
    intro entry _
    by_cases same : entry.1 = key <;> simp [same]
  rw [mem_def, sameKeys, mem_def]

theorem get?_modify (map : IndexMap κ ν) (key candidate : κ)
    (change : ν → ν) :
    (map.modify key change).get? candidate =
      if candidate = key then (map.get? candidate).map change
      else map.get? candidate := by
  ext found
  rw [get?_eq_some]
  simp only [modify, List.mem_map]
  constructor
  · rintro ⟨⟨entryKey, entryValue⟩, entryMember, entryEquation⟩
    rw [← get?_eq_some] at entryMember
    by_cases same : entryKey = key
    · simp only [same, if_true, Prod.mk.injEq] at entryEquation
      obtain ⟨rfl, rfl⟩ := entryEquation
      subst same
      simp [entryMember]
    · simp only [same, if_false, Prod.mk.injEq] at entryEquation
      obtain ⟨rfl, rfl⟩ := entryEquation
      simp [same, entryMember]
  · intro lookup
    by_cases same : candidate = key
    · simp only [same, if_true, Option.map_eq_some_iff] at lookup
      obtain ⟨old, oldLookup, rfl⟩ := lookup
      exact ⟨(key, old), get?_eq_some.mp oldLookup, by simp [same]⟩
    · simp only [same, if_false] at lookup
      exact ⟨(candidate, found), get?_eq_some.mp lookup, by simp [same]⟩

theorem get?_modify_self (map : IndexMap κ ν) (key : κ) (change : ν → ν) :
    (map.modify key change).get? key = (map.get? key).map change := by
  rw [get?_modify, if_pos rfl]

theorem get?_modify_of_ne (map : IndexMap κ ν) {key candidate : κ}
    (change : ν → ν) (different : candidate ≠ key) :
    (map.modify key change).get? candidate = map.get? candidate := by
  rw [get?_modify, if_neg different]

def mapValues (map : IndexMap κ ν) (change : ν → ν) : IndexMap κ ν :=
  ⟨map.entries.map fun entry => (entry.1, change entry.2), by
    rw [List.map_map]
    exact map.nodup⟩

omit [DecidableEq κ] in
@[simp] theorem mem_mapValues {map : IndexMap κ ν} {key : κ}
    {change : ν → ν} : key ∈ map.mapValues change ↔ key ∈ map := by
  simp [mem_def, keys, mapValues]

theorem get?_of_entries_map {μ : Type} {map : IndexMap κ ν}
    {mapped : IndexMap κ μ} {change : ν → μ}
    (entries : mapped.entries =
      map.entries.map fun entry => (entry.1, change entry.2)) (key : κ) :
    mapped.get? key = (map.get? key).map change := by
  ext found
  rw [get?_eq_some, entries]
  simp only [List.mem_map, Prod.mk.injEq, Prod.exists, Option.map_eq_some_iff,
    get?_eq_some]
  constructor
  · rintro ⟨entryKey, entryValue, entryMember, rfl, rfl⟩
    exact ⟨entryValue, entryMember, rfl⟩
  · rintro ⟨value, member, rfl⟩
    exact ⟨key, value, member, rfl, rfl⟩

theorem get?_mapValues (map : IndexMap κ ν) (key : κ) (change : ν → ν) :
    (map.mapValues change).get? key = (map.get? key).map change :=
  get?_of_entries_map rfl key

section

variable {μ : Type}

def map (map : IndexMap κ ν) (change : ν → μ) : IndexMap κ μ :=
  ⟨map.entries.map fun entry => (entry.1, change entry.2), by
    rw [List.map_map]
    exact map.nodup⟩

omit [DecidableEq κ] in
@[simp] theorem keys_map (map : IndexMap κ ν) (change : ν → μ) :
    (map.map change).keys = map.keys := by
  simp [keys, IndexMap.map, Function.comp_def]

omit [DecidableEq κ] in
@[simp] theorem mem_map {map : IndexMap κ ν} {key : κ} {change : ν → μ} :
    key ∈ map.map change ↔ key ∈ map := by
  rw [mem_def, keys_map, mem_def]

theorem get?_map (map : IndexMap κ ν) (key : κ) (change : ν → μ) :
    (map.map change).get? key = (map.get? key).map change :=
  get?_of_entries_map rfl key

omit [DecidableEq κ] in
theorem ext_entries {map other : IndexMap κ ν}
    (same : map.entries = other.entries) : map = other := by
  cases map
  cases other
  cases same
  rfl

omit [DecidableEq κ] in
theorem eq_empty {map : IndexMap κ ν} (absent : ∀ key, key ∉ map) :
    map = empty := by
  apply ext_entries
  apply List.eq_nil_iff_forall_not_mem.mpr
  intro entry member
  exact absent entry.1 (List.mem_map_of_mem member)

theorem map_insert (map : IndexMap κ ν) (key : κ) (value : ν)
    (change : ν → μ) :
    (map.insert key value).map change =
      (map.map change).insert key (change value) := by
  apply ext_entries
  by_cases member : key ∈ map
  · have mapped : key ∈ map.map change := mem_map.mpr member
    rw [insert, insert, dif_pos member, dif_pos mapped]
    simp only [IndexMap.map, List.map_map]
    apply List.map_congr_left
    intro entry _
    by_cases same : entry.1 = key <;> simp [same]
  · have unmapped : key ∉ map.map change := fun mapped =>
      member (mem_map.mp mapped)
    rw [insert, insert, dif_neg member, dif_neg unmapped]
    simp [IndexMap.map]

end

theorem get?_foldl_insert {μ : Type} (change : κ → μ → ν)
    (map : IndexMap κ ν) (other : IndexMap κ μ) (key : κ) :
    (other.entries.foldl (fun current entry =>
        current.insert entry.1 (change entry.1 entry.2)) map).get? key =
      ((other.get? key).map (change key)).or (map.get? key) := by
  obtain ⟨entries, nodup⟩ := other
  induction entries generalizing map with
  | nil => rfl
  | cons entry rest ih =>
      obtain ⟨first, value⟩ := entry
      obtain ⟨fresh, later⟩ := List.nodup_cons.mp nodup
      rw [List.foldl_cons, ih _ later, get?_insert]
      by_cases same : key = first
      · subst same
        have absent : (⟨rest, later⟩ : IndexMap κ μ).get? key = none :=
          get?_eq_none.mpr fresh
        have found : (⟨(key, value) :: rest, nodup⟩ : IndexMap κ μ).get? key =
            some value := get?_eq_some.mpr (.head _)
        rw [absent, found, if_pos rfl]
        rfl
      · have other : ¬first = key := fun equal => same equal.symm
        simp [get?, same, other]

private theorem swapRemove_perm (map : IndexMap κ ν) (key : κ) :
    (swapRemoveList (fun entry => decide (entry.1 = key)) map.entries).Perm
      (map.entries.filter fun entry => !decide (entry.1 = key)) := by
  apply swapRemoveList_perm
  refine (List.pairwise_map.mp map.nodup).imp ?_
  intro left right different leftKey
  simp only [decide_eq_true_eq] at leftKey
  simp only [decide_eq_false_iff_not]
  exact fun rightKey => different (leftKey.trans rightKey.symm)

/-- Remove a key, moving the last entry into its place. -/
def swapRemove (map : IndexMap κ ν) (key : κ) : IndexMap κ ν :=
  ⟨swapRemoveList (fun entry => decide (entry.1 = key)) map.entries, by
    rw [((map.swapRemove_perm key).map Prod.fst).nodup_iff]
    exact map.nodup.sublist (List.filter_sublist.map Prod.fst)⟩

theorem keys_swapRemove (map : IndexMap κ ν) (key : κ) :
    (map.swapRemove key).keys =
      swapRemoveList (fun candidate => decide (candidate = key)) map.keys :=
  map_swapRemoveList Prod.fst (fun candidate => decide (candidate = key)) _

theorem map_swapRemove {μ : Type} (map : IndexMap κ ν) (key : κ)
    (change : ν → μ) :
    (map.swapRemove key).map change = (map.map change).swapRemove key :=
  ext_entries (map_swapRemoveList (fun entry : κ × ν => (entry.1, change entry.2))
    (fun entry => decide (entry.1 = key)) map.entries)

theorem keys_insertAll (map : IndexMap κ ν) (value : ν) {new : List κ}
    (nodup : (map.keys ++ new).Nodup) :
    (new.foldl (fun current key => current.insert key value) map).keys =
      map.keys ++ new := by
  induction new generalizing map with
  | nil => exact (List.append_nil _).symm
  | cons first rest ih =>
      have absent : first ∉ map := fun member =>
        (List.nodup_append.mp nodup).2.2 first member first (by simp) rfl
      have inserted : (map.insert first value).keys = map.keys ++ [first] := by
        rw [keys_insert, if_neg absent]
      rw [List.foldl_cons, ih, inserted, List.append_assoc,
        List.singleton_append]
      rwa [inserted, List.append_assoc]

theorem get?_swapRemove (map : IndexMap κ ν) (key candidate : κ) :
    (map.swapRemove key).get? candidate =
      if candidate = key then none else map.get? candidate := by
  ext found
  rw [get?_eq_some]
  have moved : (candidate, found) ∈ (map.swapRemove key).entries ↔ _ :=
    (map.swapRemove_perm key).mem_iff
  rw [moved, List.mem_filter, ← get?_eq_some]
  by_cases same : candidate = key <;> simp [same]

@[simp] theorem mem_swapRemove {map : IndexMap κ ν} {key candidate : κ} :
    candidate ∈ map.swapRemove key ↔ candidate ∈ map ∧ candidate ≠ key := by
  rw [← get?_isSome, get?_swapRemove, ← get?_isSome]
  by_cases same : candidate = key <;> simp [same]

/-- Remove every key of a list, one after the other. -/
def swapRemoveAll (map : IndexMap κ ν) (removed : List κ) : IndexMap κ ν :=
  removed.foldl swapRemove map

theorem get?_swapRemoveAll (map : IndexMap κ ν) (removed : List κ)
    (candidate : κ) :
    (map.swapRemoveAll removed).get? candidate =
      if candidate ∈ removed then none else map.get? candidate := by
  induction removed generalizing map with
  | nil => simp [swapRemoveAll]
  | cons head tail ih =>
      have step : map.swapRemoveAll (head :: tail) =
          (map.swapRemove head).swapRemoveAll tail := rfl
      rw [step, ih, get?_swapRemove]
      by_cases later : candidate ∈ tail
      · simp [later]
      · by_cases same : candidate = head <;> simp [later, same]

@[simp] theorem mem_swapRemoveAll {map : IndexMap κ ν} {removed : List κ}
    {candidate : κ} :
    candidate ∈ map.swapRemoveAll removed ↔
      candidate ∈ map ∧ candidate ∉ removed := by
  rw [← get?_isSome, get?_swapRemoveAll, ← get?_isSome]
  by_cases member : candidate ∈ removed <;> simp [member]

omit [DecidableEq κ] in
private theorem keys_retain_sublist (entries : List (κ × ν))
    (change : ν → Option ν) :
    ((entries.filterMap fun entry =>
        (change entry.2).map fun value => (entry.1, value)).map Prod.fst).Sublist
      (entries.map Prod.fst) := by
  induction entries with
  | nil => simp
  | cons head rest ih =>
      cases kept : change head.2 with
      | none => simpa [kept] using ih.cons head.1
      | some value => simpa [kept] using ih

omit [DecidableEq κ] in
def retain (map : IndexMap κ ν) (change : ν → Option ν) : IndexMap κ ν :=
  ⟨map.entries.filterMap fun entry =>
      (change entry.2).map fun value => (entry.1, value),
    map.nodup.sublist (keys_retain_sublist map.entries change)⟩

theorem get?_retain (map : IndexMap κ ν) (change : ν → Option ν) (key : κ) :
    (map.retain change).get? key = (map.get? key).bind change := by
  ext found
  rw [get?_eq_some, Option.bind_eq_some_iff]
  simp only [retain, List.mem_filterMap, Option.map_eq_some_iff,
    Prod.mk.injEq, Prod.exists, get?_eq_some]
  constructor
  · rintro ⟨entryKey, value, member, _, kept, rfl, rfl⟩
    exact ⟨value, member, kept⟩
  · rintro ⟨value, member, kept⟩
    exact ⟨key, value, member, found, kept, rfl, rfl⟩

end IndexMap

end Malstrom.Data
