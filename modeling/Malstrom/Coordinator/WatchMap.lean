import Mathlib.Data.List.Perm.Basic
import Malstrom.Data.IndexMap

namespace Malstrom.Coordinator

open Data

/-! A map which evaluates given conditions upon every change. -/

structure Notification (κ ν : Type) where
  condition : List (κ × ν) → Bool
  onComplete : Nat

structure WatchMap (κ ν : Type) where
  store : IndexMap κ ν
  notifications : List (Notification κ ν)
  /-- Receivers which were sent to. -/
  completed : List Nat
  /-- Receivers handed out so far. -/
  receivers : Nat
  /-- No notification is dropped. -/
  kept : (notifications.map Notification.onComplete ++ completed).Perm
    (List.range receivers)

namespace WatchMap

variable {κ ν : Type}

def ofStore (store : IndexMap κ ν) : WatchMap κ ν where
  store := store
  notifications := []
  completed := []
  receivers := 0
  kept := .nil

/-- Check all notifications and fire those with satisfied conditions. -/
def fireNotifications (map : WatchMap κ ν) : WatchMap κ ν where
  store := map.store
  notifications := map.notifications.filter fun notification =>
    !notification.condition map.store.entries
  completed := ((map.notifications.filter fun notification =>
    notification.condition map.store.entries).map Notification.onComplete) ++
      map.completed
  receivers := map.receivers
  kept := by
    rw [← List.append_assoc, ← List.map_append]
    refine .trans (.append_right _ (.map _ ?_)) map.kept
    refine .trans List.perm_append_comm ?_
    exact List.filter_append_perm
      (fun notification : Notification κ ν =>
        notification.condition map.store.entries) map.notifications

def change (map : WatchMap κ ν) (store : IndexMap κ ν) : WatchMap κ ν :=
  fireNotifications { map with store := store }

def notify (map : WatchMap κ ν) (condition : List (κ × ν) → Bool) :
    WatchMap κ ν × Nat :=
  ({ map with
      notifications := map.notifications ++ [⟨condition, map.receivers⟩]
      receivers := map.receivers + 1
      kept := by
        rw [List.map_append, List.map_singleton, List.append_assoc,
          List.range_succ]
        exact .trans (.append_left _ List.perm_append_comm)
          (.trans (.of_eq (List.append_assoc ..).symm)
            (.append_right _ map.kept)) },
    map.receivers)

variable [DecidableEq κ]

def insert (map : WatchMap κ ν) (key : κ) (value : ν) : WatchMap κ ν :=
  map.change (map.store.insert key value)

def remove (map : WatchMap κ ν) (key : κ) : WatchMap κ ν :=
  map.change (map.store.swapRemove key)

def applyOrDefault [Inhabited ν] (map : WatchMap κ ν) (key : κ)
    (apply : ν → ν) : WatchMap κ ν :=
  map.change (map.store.insert key (apply ((map.store.get? key).getD default)))

end WatchMap

/-! What becomes of a receiver. -/

namespace WatchMap

variable {κ ν : Type} {map : WatchMap κ ν} {store : IndexMap κ ν}
  {receiver : Nat} {condition other : List (κ × ν) → Bool}

def Pends (map : WatchMap κ ν) (receiver : Nat)
    (condition : List (κ × ν) → Bool) : Prop :=
  ⟨condition, receiver⟩ ∈ map.notifications

@[simp] theorem store_change : (map.change store).store = store := rfl

@[simp] theorem store_notify : (map.notify condition).1.store = map.store := rfl

@[simp] theorem completed_notify :
    (map.notify condition).1.completed = map.completed := rfl

theorem nodup_receivers :
    (map.notifications.map Notification.onComplete ++ map.completed).Nodup :=
  map.kept.nodup_iff.mpr List.nodup_range

theorem Pends.not_completed (pends : map.Pends receiver condition) :
    receiver ∉ map.completed := by
  intro done
  have disjoint := (List.nodup_append.mp map.nodup_receivers).2.2
  exact disjoint _ (List.mem_map_of_mem pends) _ done rfl

theorem Pends.unique (pends : map.Pends receiver condition)
    (pends' : map.Pends receiver other) : condition = other := by
  have distinct := (List.nodup_append.mp map.nodup_receivers).1
  have same := List.inj_on_of_nodup_map distinct pends pends' rfl
  exact congrArg Notification.condition same

theorem not_completed_notify : (map.notify condition).2 ∉ map.completed := by
  intro done
  have made : map.receivers ∈ List.range map.receivers :=
    map.kept.mem_iff.mp (List.mem_append_right _ done)
  simp at made

theorem pends_notify :
    (map.notify condition).1.Pends (map.notify condition).2 condition := by
  simp [Pends, notify]

theorem Pends.notify (pends : map.Pends receiver condition) :
    (map.notify other).1.Pends receiver condition :=
  List.mem_append_left _ pends

theorem Pends.change (pends : map.Pends receiver condition)
    (store : IndexMap κ ν) :
    if condition store.entries then receiver ∈ (map.change store).completed
    else (map.change store).Pends receiver condition := by
  split
  next satisfied =>
    refine List.mem_append_left _ (List.mem_map.mpr ?_)
    exact ⟨⟨condition, receiver⟩, List.mem_filter.mpr ⟨pends, satisfied⟩, rfl⟩
  next unsatisfied =>
    exact List.mem_filter.mpr ⟨pends, by simpa using unsatisfied⟩

theorem completed_change :
    receiver ∈ (map.change store).completed ↔
      receiver ∈ map.completed ∨ ∃ condition, map.Pends receiver condition ∧
        condition store.entries = true := by
  simp only [WatchMap.change, fireNotifications, List.mem_append, List.mem_map,
    List.mem_filter, Pends]
  constructor
  · rintro (⟨⟨condition, _⟩, ⟨listed, satisfied⟩, rfl⟩ | done)
    · exact .inr ⟨condition, listed, satisfied⟩
    · exact .inl done
  · rintro (done | ⟨condition, listed, satisfied⟩)
    · exact .inr done
    · exact .inl ⟨_, ⟨listed, satisfied⟩, rfl⟩

theorem Pends.completed_change (pends : map.Pends receiver condition) :
    receiver ∈ (map.change store).completed ↔
      condition store.entries = true := by
  rw [WatchMap.completed_change]
  constructor
  · rintro (done | ⟨other, pends', satisfied⟩)
    · exact absurd done pends.not_completed
    · rwa [pends.unique pends']
  · exact fun satisfied => .inr ⟨condition, pends, satisfied⟩

end WatchMap

/-! A map over time: who is woken up, and when. -/

inductive WatchMap.Operation (κ ν : Type) where
  | insert (key : κ) (value : ν)
  | remove (key : κ)
  | applyOrDefault (key : κ) (apply : ν → ν)
  | notify (condition : List (κ × ν) → Bool)

namespace WatchMap

variable {κ ν : Type} [DecidableEq κ] [Inhabited ν] {map : WatchMap κ ν}
  {receiver : Nat} {condition : List (κ × ν) → Bool}

def perform (map : WatchMap κ ν) : Operation κ ν → WatchMap κ ν
  | .insert key value => map.insert key value
  | .remove key => map.remove key
  | .applyOrDefault key apply => map.applyOrDefault key apply
  | .notify condition => (map.notify condition).1

def performAll (map : WatchMap κ ν) (operations : List (Operation κ ν)) :
    WatchMap κ ν :=
  operations.foldl perform map

/-- The condition holds at registration or after one of these operations. -/
def Satisfied (map : WatchMap κ ν) (condition : List (κ × ν) → Bool)
    (operations : List (Operation κ ν)) : Prop :=
  ∃ passed, passed <+: operations ∧
    condition (map.performAll passed).store.entries = true

/-- A receiver registered now is resolved, at every later moment, exactly if
its condition has been satisfied. -/
def Wakes (map : WatchMap κ ν) (condition : List (κ × ν) → Bool)
    (later : List (Operation κ ν)) : Prop :=
  ∀ passed, passed <+: later →
    ((map.notify condition).2 ∈
        ((map.notify condition).1.performAll passed).completed ↔
      (map.notify condition).1.Satisfied condition passed)

@[simp] theorem performAll_nil : map.performAll [] = map := rfl

@[simp] theorem performAll_cons (operation : Operation κ ν)
    (rest : List (Operation κ ν)) :
    map.performAll (operation :: rest) =
      (map.perform operation).performAll rest := rfl

theorem perform_cases (map : WatchMap κ ν) (operation : Operation κ ν) :
    (∃ store, map.perform operation = map.change store) ∨
      ∃ other, map.perform operation = (map.notify other).1 := by
  cases operation with
  | insert key value => exact .inl ⟨_, rfl⟩
  | remove key => exact .inl ⟨_, rfl⟩
  | applyOrDefault key apply => exact .inl ⟨_, rfl⟩
  | notify other => exact .inr ⟨other, rfl⟩

theorem completed_perform (operation : Operation κ ν)
    (done : receiver ∈ map.completed) :
    receiver ∈ (map.perform operation).completed := by
  obtain ⟨store, changed⟩ | ⟨other, registered⟩ :=
    perform_cases map operation
  · rw [changed, completed_change]
    exact .inl done
  · rwa [registered, completed_notify]

theorem completed_performAll (operations : List (Operation κ ν))
    (done : receiver ∈ map.completed) :
    receiver ∈ (map.performAll operations).completed := by
  induction operations generalizing map with
  | nil => exact done
  | cons operation rest ih => exact ih (completed_perform operation done)

@[simp] theorem satisfied_nil :
    map.Satisfied condition [] ↔ condition map.store.entries = true := by
  simp [Satisfied]

theorem satisfied_cons {operation : Operation κ ν}
    {rest : List (Operation κ ν)} :
    map.Satisfied condition (operation :: rest) ↔
      condition map.store.entries = true ∨
        (map.perform operation).Satisfied condition rest := by
  constructor
  · rintro ⟨passed, isPrefix, holds⟩
    cases passed with
    | nil => exact .inl holds
    | cons first passed =>
        obtain ⟨rfl, shorter⟩ := List.cons_prefix_cons.mp isPrefix
        exact .inr ⟨passed, shorter, holds⟩
  · rintro (holds | ⟨passed, isPrefix, holds⟩)
    · exact ⟨[], List.nil_prefix, holds⟩
    · exact ⟨operation :: passed,
        List.cons_prefix_cons.mpr ⟨rfl, isPrefix⟩, holds⟩

/-- A receiver which has to wait misses nothing. -/
theorem Pends.completed_iff (pends : map.Pends receiver condition)
    (unsatisfied : condition map.store.entries = false)
    (operations : List (Operation κ ν)) :
    receiver ∈ (map.performAll operations).completed ↔
      map.Satisfied condition operations := by
  induction operations generalizing map with
  | nil => simpa [unsatisfied] using pends.not_completed
  | cons operation rest ih =>
      rw [performAll_cons, satisfied_cons, unsatisfied]
      simp only [Bool.false_eq_true, false_or]
      obtain ⟨store, changed⟩ | ⟨other, registered⟩ :=
        perform_cases map operation
      · rw [changed]
        have fires := pends.change store
        cases holds : condition store.entries with
        | true =>
            rw [if_pos holds] at fires
            have done := completed_performAll rest fires
            exact iff_of_true done ⟨[], List.nil_prefix, holds⟩
        | false =>
            rw [if_neg (by simp [holds])] at fires
            exact ih fires holds
      · rw [registered]
        exact ih pends.notify unsatisfied

/-- `notify` does not look at the map, so it is the condition which holds
already that is never noticed in time. -/
theorem wakes_iff (store : IndexMap κ ν) (before : List (Operation κ ν))
    (condition : List (κ × ν) → Bool) (later : List (Operation κ ν)) :
    ((ofStore store).performAll before).Wakes condition later ↔
      condition ((ofStore store).performAll before).store.entries = false := by
  generalize (ofStore store).performAll before = map
  constructor
  · intro wakes
    have atOnce := wakes [] List.nil_prefix
    rw [performAll_nil, satisfied_nil, store_notify] at atOnce
    exact Bool.eq_false_iff.mpr (mt atOnce.mpr not_completed_notify)
  · intro unsatisfied passed _
    exact Pends.completed_iff pends_notify unsatisfied passed

/-- The worker has reported before the coordinator waits for the report. -/
theorem satisfied_not_woken :
    ¬ ((ofStore (.empty : IndexMap Nat Nat)).performAll
        [.insert 42 81]).Wakes (fun entries => entries.any fun entry =>
          decide (entry.2 > 80)) [] := by
  intro wakes
  have atOnce := wakes [] List.nil_prefix
  simp only [performAll_nil, satisfied_nil] at atOnce
  exact absurd (atOnce.mpr (by decide)) (by decide)

end WatchMap

end Malstrom.Coordinator
