import Malstrom.Keyed.System

namespace Malstrom.Keyed

open Data Operators

variable {K V T S : Type}

/-! A distributor with the barriers which pass through it, and what it is built
from after a restart. -/

/-- A snapshot barrier, by what its persistence client holds for the operator of
the distributor. -/
structure Barrier (T : Type) where
  saved : Option (DistributorState T)

structure Carrier (K V T : Type) where
  distributor : Distributor K V T
  /-- The barrier of the local upstream, until it is emitted. -/
  barrier : Option (Barrier T) := none
  /-- The barriers emitted so far, each with the distributor which did. -/
  emitted : List (Distributor K V T × Barrier T) := []

inductive Carrier.Call (K V T S : Type) where
  | receiveRemote (remote : WorkerId) (message : NetworkMessage K V T)
  /-- The barrier is the one the message holds, if it is a barrier. -/
  | receiveLocal (message : Message K V T) (barrier : Barrier T)
  | tryEmitBarrier
  | tryEmitShutdown
  /-- `clones` clones of the router's cell are left elsewhere. -/
  | lifecycle (clones : Nat)
  /-- An operator downstream writes into the router's cell. -/
  | takeReport (report : Report K S)

namespace Carrier

variable [DecidableEq K] [MaybeTime T] (partitioner : WorkerPartitioner K)
  (thisWorker : WorkerId)

omit [DecidableEq K] [MaybeTime T] in
def tryEmitBarrier (carrier : Carrier K V T) : Carrier K V T :=
  let tried := carrier.distributor.tryEmitBarrier
  match carrier.barrier with
  | some barrier =>
      if tried.2.output.any Message.isBarrier then
        { distributor := tried.1
          barrier := none
          emitted := carrier.emitted ++ [(carrier.distributor, barrier)] }
      else { carrier with distributor := tried.1 }
  | none => { carrier with distributor := tried.1 }

def step (carrier : Carrier K V T) :
    Call K V T S → Except Panic (Carrier K V T)
  | .receiveRemote remote message =>
      if carrier.distributor.canReceive remote then
        match carrier.distributor.receiveRemote remote message partitioner
          thisWorker with
        | .ok (distributor, _) => .ok { carrier with distributor := distributor }
        | .error panic => .error panic
      else .ok carrier
  | .receiveLocal message barrier =>
      if carrier.distributor.localBarrier then .ok carrier
      else
        match carrier.distributor.receiveLocal message partitioner
          thisWorker with
        | .ok (distributor, _) =>
            .ok { carrier with
              distributor := distributor
              barrier := if message.isBarrier then some barrier
                else carrier.barrier }
        | .error panic => .error panic
  | .tryEmitBarrier => .ok carrier.tryEmitBarrier
  | .tryEmitShutdown =>
      .ok { carrier with distributor := carrier.distributor.tryEmitShutdown.1 }
  | .lifecycle clones =>
      match carrier.distributor.lifecycle partitioner clones with
      | .ok (distributor, _) => .ok { carrier with distributor := distributor }
      | .error panic => .error panic
  | .takeReport report =>
      .ok { carrier with distributor := carrier.distributor.takeReport report }

/-- No two operators have the same id, so nobody has saved anything for this one
in a barrier which comes in. -/
def Unsaved (_carrier : Carrier K V T) : Call K V T S → Prop
  | .receiveLocal _ barrier => barrier.saved = none
  | .receiveRemote .. | .tryEmitBarrier | .tryEmitShutdown | .lifecycle _
  | .takeReport _ => True

end Carrier

def RemoteState.kept (state : RemoteState T) :
    Option T × Option Version × Option Version :=
  (state.frontier, state.lastVersion, state.lastAckVersion)

/-- A distributor which is built from what was saved is like this one, and none
is built for a worker set of another size. -/
structure Distributor.Restores (distributor : Distributor K V T)
    (thisWorker : WorkerId) (workerIds : IndexSet WorkerId)
    (saved : Option (DistributorState T)) : Prop where
  rebuilds : ∃ rebuilt : Distributor K V T,
    new thisWorker workerIds saved = .ok rebuilt ∧
      rebuilt.router = distributor.router ∧
      rebuilt.localFrontier = distributor.localFrontier ∧
      ∀ remote, (rebuilt.remotes.get? remote).map RemoteState.kept =
        (distributor.remotes.get? remote).map RemoteState.kept
  rejects : ∀ other : IndexSet WorkerId, thisWorker ∈ other →
    other.items.length ≠ workerIds.items.length →
      ∃ panic, (new thisWorker other saved : Except Panic (Distributor K V T)) =
        .error panic

section

variable [DecidableEq K] [MaybeTime T] {partitioner : WorkerPartitioner K}
  {thisWorker : WorkerId} {start carrier : Carrier K V T}

def Carrier.barriers (carrier : Carrier K V T) : List (Barrier T) :=
  carrier.emitted.map Prod.snd ++ carrier.barrier.toList

theorem Carrier.barriers_step {call : Carrier.Call K V T S}
    {next : Carrier K V T}
    (stepped : carrier.step partitioner thisWorker call = .ok next)
    {barrier : Barrier T} (member : barrier ∈ next.barriers) :
    barrier ∈ carrier.barriers ∨
      ∃ message, call = .receiveLocal message barrier := by
  cases call with
  | receiveRemote remote message =>
      simp only [step] at stepped
      split at stepped
      · split at stepped
        · cases stepped
          exact .inl member
        · cases stepped
      · cases stepped
        exact .inl member
  | receiveLocal message held =>
      simp only [step] at stepped
      split at stepped
      · cases stepped
        exact .inl member
      · split at stepped
        · cases stepped
          simp only [barriers, List.mem_append] at member ⊢
          split at member
          · rcases member with emitted | received
            · exact .inl (.inl emitted)
            · obtain rfl : barrier = held := by simpa using received
              exact .inr ⟨message, rfl⟩
          · exact .inl member
        · cases stepped
  | tryEmitBarrier =>
      cases stepped
      refine .inl ?_
      simp only [tryEmitBarrier] at member
      split at member
      next held isHeld =>
        split at member
        · simpa [barriers, isHeld] using member
        · exact member
      next => exact member
  | lifecycle clones =>
      simp only [step] at stepped
      split at stepped
      · cases stepped
        exact .inl member
      · cases stepped
  | tryEmitShutdown | takeReport report =>
      cases stepped
      exact .inl member

theorem Carrier.saved_eq_none {distributor : Distributor K V T}
    (run : Reaches (step (S := S) partitioner thisWorker) Unsaved
      { distributor := distributor } carrier)
    {barrier : Barrier T} (member : barrier ∈ carrier.barriers) :
    barrier.saved = none := by
  induction run with
  | refl => cases member
  | tail run permitted stepped ih =>
      rcases barriers_step stepped member with before | ⟨message, rfl⟩
      · exact ih before
      · exact permitted

omit [DecidableEq K] [MaybeTime T] in
/-- Without saved state a distributor is built for any worker set. -/
theorem Distributor.not_restores (distributor : Distributor K V T)
    (workerIds : IndexSet WorkerId) :
    ¬ distributor.Restores thisWorker workerIds none := by
  intro restores
  have alone : (⟨[thisWorker], List.nodup_singleton _⟩ :
      IndexSet WorkerId).items.length = 1 := rfl
  have pair : ∃ other : IndexSet WorkerId, thisWorker ∈ other ∧
      other.items.length = 2 :=
    ⟨⟨[thisWorker, thisWorker + 1], by simp⟩, .head _, rfl⟩
  obtain ⟨other, inside, different⟩ : ∃ other : IndexSet WorkerId,
      thisWorker ∈ other ∧ other.items.length ≠ workerIds.items.length := by
    by_cases single : workerIds.items.length = 1
    · obtain ⟨other, inside, two⟩ := pair
      exact ⟨other, inside, by omega⟩
    · exact ⟨⟨[thisWorker], List.nodup_singleton _⟩, .head _,
        fun same => single (same.symm.trans alone)⟩
  obtain ⟨panic, rejected⟩ := restores.rejects other inside different
  cases rejected

omit [DecidableEq K] [MaybeTime T] in
/-- It is like the one which was stopped if that one had learnt nothing. -/
theorem Distributor.rebuilds_iff (distributor : Distributor K V T)
    (workerIds : IndexSet WorkerId) :
    (∃ rebuilt : Distributor K V T, new thisWorker workerIds none = .ok rebuilt ∧
      rebuilt.router = distributor.router ∧
      rebuilt.localFrontier = distributor.localFrontier ∧
      ∀ remote, (rebuilt.remotes.get? remote).map RemoteState.kept =
        (distributor.remotes.get? remote).map RemoteState.kept) ↔
    distributor.router = .normal ⟨workerIds, 0⟩ ∧
      distributor.localFrontier = none ∧
      ∀ remote, (distributor.remotes.get? remote).map RemoteState.kept =
        if remote ∈ workerIds ∧ remote ≠ thisWorker then
          some (none, none, none) else none := by
  have remotes (remote : WorkerId) :
      ((fresh thisWorker workerIds : Distributor K V T).remotes.get?
          remote).map RemoteState.kept =
        if remote ∈ workerIds ∧ remote ≠ thisWorker then
          some (none, none, none) else none := by
    simp only [fresh, Remotes.get?_ofWorkers, IndexSet.mem_difference,
      IndexSet.mem_ofList, List.mem_singleton]
    split <;> rfl
  constructor
  · rintro ⟨rebuilt, isRebuilt, router, frontier, states⟩
    cases isRebuilt
    exact ⟨router.symm, frontier.symm, fun remote =>
      (states remote).symm.trans (remotes remote)⟩
  · rintro ⟨router, frontier, states⟩
    exact ⟨fresh thisWorker workerIds, rfl, router.symm, frontier.symm,
      fun remote => (remotes remote).trans (states remote).symm⟩

/-- Whatever barrier a distributor emits, it does not resume from what was saved
there. -/
theorem never_restores (partitioner : WorkerPartitioner K)
    (thisWorker : WorkerId) (distributor : Distributor K V T)
    (run : Reaches (Carrier.step (S := S) partitioner thisWorker)
      Carrier.Unsaved { distributor := distributor } carrier)
    (emitting : Distributor K V T) (barrier : Barrier T)
    (emitted : (emitting, barrier) ∈ carrier.emitted)
    (workerIds : IndexSet WorkerId) :
    ¬ emitting.Restores thisWorker workerIds barrier.saved := by
  have member : barrier ∈ carrier.barriers :=
    List.mem_append_left _ (List.mem_map_of_mem emitted)
  rw [Carrier.saved_eq_none run member]
  exact emitting.not_restores workerIds

end

instance (carrier : Carrier K V T) (call : Carrier.Call K V T S) :
    Decidable (carrier.Unsaved call) := by
  cases call with
  | receiveLocal message barrier =>
      exact inferInstanceAs (Decidable (barrier.saved = none))
  | receiveRemote | tryEmitBarrier | tryEmitShutdown | lifecycle
  | takeReport => exact inferInstanceAs (Decidable True)

def firstOfTwo : Distributor Nat Unit Nat :=
  .fresh 0 (IndexSet.ofList [0, 1])

def barrierCalls : List (Carrier.Call Nat Unit Nat Unit) :=
  [.receiveLocal (.epoch 5) ⟨none⟩, .receiveRemote 1 (.epoch 7),
    .receiveLocal .absBarrier ⟨none⟩, .receiveRemote 1 .barrierMarker,
    .tryEmitBarrier]

def everyKeyFirst : WorkerPartitioner Nat := fun _ _ => 0

def barrierPassed : Carrier Nat Unit Nat :=
  replay (Carrier.step everyKeyFirst 0) { distributor := firstOfTwo } barrierCalls

theorem barrierPassed_reached :
    Reaches (Carrier.step (S := Unit) everyKeyFirst 0) Carrier.Unsaved
      { distributor := firstOfTwo } barrierPassed :=
  Follows.reaches barrierCalls .refl (by decide)

theorem barrierPassed_not_restored :
    Reaches (Carrier.step (S := Unit) everyKeyFirst 0) Carrier.Unsaved
      { distributor := firstOfTwo } barrierPassed ∧
    ∃ emitting barrier, (emitting, barrier) ∈ barrierPassed.emitted ∧
      ¬ emitting.Restores 0 ⟨[0, 1], by decide⟩ barrier.saved := by
  obtain ⟨⟨emitting, barrier⟩, member⟩ :=
    List.exists_mem_of_length_pos (by decide : 0 < barrierPassed.emitted.length)
  exact ⟨barrierPassed_reached, emitting, barrier, member,
    never_restores everyKeyFirst 0 firstOfTwo barrierPassed_reached emitting
      barrier member _⟩

/-- The frontier of the distributor is not there any more when it is built
again. -/
theorem frontier_forgotten :
    Reaches (Carrier.step (S := Unit) everyKeyFirst 0) Carrier.Unsaved
      { distributor := firstOfTwo } barrierPassed ∧
    barrierPassed.emitted.length = 1 ∧
    ∀ entry ∈ barrierPassed.emitted, entry.1.localFrontier = some 5 ∧
      ¬ entry.1.Restores 0 ⟨[0, 1], by decide⟩ entry.2.saved := by
  have emitted : ∀ entry ∈ barrierPassed.emitted,
      entry.1.localFrontier = some 5 ∧ entry.2.saved = none := by decide
  refine ⟨barrierPassed_reached, by decide, fun entry member => ?_⟩
  obtain ⟨frontier, unsaved⟩ := emitted entry member
  refine ⟨frontier, fun restores => ?_⟩
  obtain ⟨rebuilt, isRebuilt, -, same, -⟩ := restores.rebuilds
  rw [unsaved] at isRebuilt
  cases isRebuilt
  exact absurd (same.trans frontier) nofun

end Malstrom.Keyed
