import Malstrom.Data.Greatest
import Malstrom.Keyed.System

namespace Malstrom.Keyed

open Data Operators

variable {K : Type}

/-- Use the key as a wrapping index on the set of workers.  Of an empty set it
gives worker 0, where the source panics. -/
def indexSelect (key : Nat) (workers : IndexSet WorkerId) : WorkerId :=
  workers.items.getD (key % workers.items.length) 0

theorem indexSelect_mem (key : Nat) {workers : IndexSet WorkerId}
    (nonempty : workers.items ≠ []) : indexSelect key workers ∈ workers := by
  have inBounds : key % workers.items.length < workers.items.length :=
    Nat.mod_lt _ (List.length_pos_iff.mpr nonempty)
  rw [IndexSet.mem_def, indexSelect, List.getD_eq_getElem?_getD,
    List.getElem?_eq_getElem inBounds]
  exact List.getElem_mem inBounds

/-- Rendezvous hashing: the worker with the greatest hash, of several the last.
Of an empty set it gives worker 0, where the source panics. -/
def rendezvousSelect (hash : K → WorkerId → Nat) (key : K)
    (workers : IndexSet WorkerId) : WorkerId :=
  match workers.items with
  | [] => 0
  | first :: rest => rest.foldl (fun chosen worker =>
      if hash key chosen ≤ hash key worker then worker else chosen) first

theorem rendezvousSelect_greatest (hash : K → WorkerId → Nat) (key : K)
    {workers : IndexSet WorkerId} (nonempty : workers.items ≠ []) :
    LastGreatest (hash key) workers.items
      (rendezvousSelect hash key workers) := by
  unfold rendezvousSelect
  cases items : workers.items with
  | nil => exact absurd items nonempty
  | cons first rest => exact lastGreatest_spec first rest

theorem rendezvousSelect_mem (hash : K → WorkerId → Nat) (key : K)
    {workers : IndexSet WorkerId} (nonempty : workers.items ≠ []) :
    rendezvousSelect hash key workers ∈ workers :=
  (rendezvousSelect_greatest hash key nonempty).mem

theorem rendezvousSelect_within (hash : K → WorkerId → Nat) (key : K)
    {fewer workers : IndexSet WorkerId}
    (within : fewer.items.Sublist workers.items)
    (member : rendezvousSelect hash key workers ∈ fewer) :
    rendezvousSelect hash key workers = rendezvousSelect hash key fewer := by
  have listed : fewer.items ≠ [] := List.ne_nil_of_mem member
  have nonempty : workers.items ≠ [] :=
    List.ne_nil_of_mem (within.subset member)
  have kept := (rendezvousSelect_greatest hash key nonempty).sublist
    workers.nodup within member
  exact kept.unique (rendezvousSelect_greatest hash key listed)

theorem InterrogateRouter.new_tester (version : Version)
    (oldWorkerSet : IndexSet WorkerId) (trigger : RescaleMessage)
    (partitioner : WorkerPartitioner K) (key : K) :
    (InterrogateRouter.new version oldWorkerSet trigger
      partitioner).interrogateMsg.tester key = true ↔
        partitioner key oldWorkerSet ≠ partitioner key trigger.workers := by
  simp [InterrogateRouter.new, Interrogate.new]

/-- When workers are added or removed only their keys have to be moved. -/
theorem rendezvous_moves_few (hash : K → WorkerId → Nat)
    {fewer workers : IndexSet WorkerId} (nonempty : fewer.items ≠ [])
    (within : fewer.items.Sublist workers.items) (key : K)
    (version next : Version) :
    rendezvousSelect hash key fewer ∈ fewer ∧
    rendezvousSelect hash key workers ∈ workers ∧
    (rendezvousSelect hash key workers ∈ fewer →
      rendezvousSelect hash key workers = rendezvousSelect hash key fewer) ∧
    ((InterrogateRouter.new version fewer ⟨workers, next⟩
        (rendezvousSelect hash)).interrogateMsg.tester key = true ↔
      rendezvousSelect hash key workers ∉ fewer) ∧
    ((InterrogateRouter.new version workers ⟨fewer, next⟩
        (rendezvousSelect hash)).interrogateMsg.tester key = true ↔
      rendezvousSelect hash key workers ∉ fewer) := by
  have chosen := rendezvousSelect_mem hash key nonempty
  have listed : workers.items ≠ [] :=
    List.ne_nil_of_mem (within.subset chosen)
  have moves : rendezvousSelect hash key workers ≠
      rendezvousSelect hash key fewer ↔
        rendezvousSelect hash key workers ∉ fewer := by
    constructor
    · intro different member
      exact different (rendezvousSelect_within hash key within member)
    · intro absent same
      exact absent (same ▸ chosen)
  refine ⟨chosen, rendezvousSelect_mem hash key listed,
    rendezvousSelect_within hash key within, ?_, ?_⟩
  · rw [InterrogateRouter.new_tester]
    exact ne_comm.trans moves
  · rw [InterrogateRouter.new_tester]
    exact moves

theorem parity_moves_few :
    ([0, 2] : List WorkerId).Sublist [0, 1, 2, 3] ∧
    ((InterrogateRouter.new 0 (IndexSet.ofList [0, 2])
        ⟨IndexSet.ofList [0, 1, 2, 3], 1⟩
        (rendezvousSelect fun key worker => (key + worker) % 2)).interrogateMsg
          |>.tester 1) = false :=
  have within : (IndexSet.ofList [0, 2] : IndexSet WorkerId).items.Sublist
      (IndexSet.ofList [0, 1, 2, 3] : IndexSet WorkerId).items := by decide
  have moves := rendezvous_moves_few (fun key worker => (key + worker) % 2)
    (by decide) within 1 0 1
  ⟨by decide, by
    rw [Bool.eq_false_iff, Ne, moves.2.2.2.1]
    decide⟩

def countLogic : StatefulLogic Nat Unit Nat Nat Nat Unit where
  onData _ message count :=
    ((), some (count + 1), [⟨message.key, count + 1, message.timestamp⟩])
  onEpoch _ _ state := ((), state, [])
  onSchedule _ state := ((), state, [])

/-- The job which counts records, with the wrapping index as partitioner. -/
def countJob : Job Nat Unit Nat Nat Nat Unit where
  partitioner := indexSelect
  operator :=
    { operatorId := 0
      logic := countLogic
      default := 0
      encode := fun count => List.replicate count 0
      decode := List.length }
  memory := ()

end Malstrom.Keyed
