import Mathlib.Algebra.Group.Nat.Defs
import Malstrom.Data.Link
import Malstrom.Data.Transition
import Malstrom.Operators.StatefulOp

namespace Malstrom.Sources

open Data Operators

variable {Part V T S P : Type}

/-! A source whose partitions are spread over the workers and moved by
rescales. -/

/-- The user's part of a source: `P` is a partition in use and `S` the state
it is rebuilt from. -/
structure StatefulSourceImpl (Part V T S P : Type) where
  listParts : List Part
  buildPart : Part → Option S → P
  poll : P → Option (V × T) × P
  isFinished : P → Bool × P
  snapshot : P → S
  collect : P → S
  suspend : P → P

structure StatefulSource (Part V T S P : Type) where
  operatorId : OperatorId
  builder : StatefulSourceImpl Part V T S P
  /-- `T::MAX`. -/
  maxTime : T
  encode : S → Bytes
  decode : Bytes → S

structure PartitionOp (Part T P : Type) where
  partitions : IndexMap Part P
  /-- Every listed partition, true if it is finished. -/
  allPartitions : IndexMap Part Bool
  /-- The workers we hold a communication client for. -/
  commClients : IndexSet WorkerId
  /-- The final epoch, until it is sent. -/
  maxT : Option T

inductive SourcePanic where
  | unknownPartition
  deriving DecidableEq

/-- What a call does besides changing the operator: the messages it hands
downstream, the finished partitions it broadcasts, what it reports. -/
structure SourceEffects (Part V T S : Type) where
  output : List (Message Part V T) := []
  finished : List Part := []
  report : Report Part S := .nothing

def negate (worker : WorkerId) : WorkerId := 2 ^ 64 - 1 - worker

namespace StatefulSource

variable [DecidableEq Part] (source : StatefulSource Part V T S P)

def new (thisWorker : WorkerId) (workerIds : IndexSet WorkerId)
    (state : Option (IndexMap Part S)) : PartitionOp Part T P :=
  { partitions := match state with
      | some restored => restored.entries.foldl (fun partitions entry =>
          partitions.insert entry.1
            (source.builder.buildPart entry.1 (some entry.2))) IndexMap.empty
      | none => IndexMap.empty
    allPartitions := source.builder.listParts.foldl
      (fun partitions part => partitions.insert part false) IndexMap.empty
    commClients := workerIds.retain fun worker => decide (worker ≠ thisWorker)
    maxT := some source.maxTime }

/-- Poll the partitions in order.  One which has finished and is not marked yet
is marked and broadcast. -/
def pollPartitions : List (Part × P) → IndexMap Part Bool →
    Except SourcePanic
      (IndexMap Part Bool × List (Message Part V T) × List Part)
  | [], allPartitions => .ok (allPartitions, [], [])
  | (part, partition) :: rest, allPartitions =>
      let polled := source.builder.poll partition
      match allPartitions.get? part with
      | none => .error .unknownPartition
      | some partState =>
          let isFinished := (source.builder.isFinished polled.2).1 && !partState
          match pollPartitions rest
            (if isFinished then allPartitions.insert part true
            else allPartitions) with
          | .error panic => .error panic
          | .ok (marked, output, finished) =>
              .ok (marked,
                (polled.1.toList.map fun record =>
                  .data ⟨part, record.1, record.2⟩) ++ output,
                if isFinished then part :: finished else finished)

omit source in
def markFinished : List Part → IndexMap Part Bool →
    Except SourcePanic (IndexMap Part Bool)
  | [], allPartitions => .ok allPartitions
  | part :: rest, allPartitions =>
      match allPartitions.get? part with
      | none => .error .unknownPartition
      | some _ => markFinished rest (allPartitions.insert part true)

def heard (op : PartitionOp Part T P) (incoming : WorkerId → List Part) :
    List Part :=
  op.commClients.items.filterMap fun client => (incoming client).head?

def onSchedule (op : PartitionOp Part T P) (incoming : WorkerId → List Part) :
    Except SourcePanic (PartitionOp Part T P × SourceEffects Part V T S) :=
  match source.pollPartitions op.partitions.entries op.allPartitions with
  | .error panic => .error panic
  | .ok (polled, output, finished) =>
      match markFinished (heard op incoming) polled with
      | .error panic => .error panic
      | .ok marked =>
          let done := marked.values.all id
          .ok ({ op with
              partitions := op.partitions.mapValues fun partition =>
                (source.builder.isFinished (source.builder.poll partition).2).2
              allPartitions := marked
              maxT := if done then none else op.maxT },
            { output := output ++
                if done then op.maxT.toList.map .epoch else []
              finished := finished })

def onData (op : PartitionOp Part T P) (part : Part) : PartitionOp Part T P :=
  if part ∈ op.partitions then op
  else { op with
    partitions := op.partitions.insert part (source.builder.buildPart part none) }

omit source in
/-- Clients of workers which are no longer there are dropped, clients of new
workers are created. -/
def onRescale (op : PartitionOp Part T P) (rescale : RescaleMessage)
    (thisWorker : WorkerId) : PartitionOp Part T P :=
  let kept := op.commClients.retain fun worker =>
    decide (worker ∈ rescale.workers)
  { op with
    commClients := rescale.workers.items.foldl (fun clients worker =>
      if worker ∉ clients ∧ negate worker = thisWorker then
        clients.insert worker
      else clients) kept }

/-- The keys of a partition are its part; a record only names it. -/
def receive (op : PartitionOp Part T P)
    (message : Message Part Unit NoTime) (thisWorker : WorkerId) :
    PartitionOp Part T P × SourceEffects Part V T S :=
  match message with
  | .data record => (source.onData op record.key, {})
  | .epoch _ => (op, {})
  | .absBarrier =>
      (op, { output := [.absBarrier]
             report := .persist source.operatorId
              ⟨op.partitions.entries.map fun entry =>
                  (entry.1, source.builder.snapshot entry.2),
                by simpa [Function.comp_def] using op.partitions.nodup⟩ })
  | .rescale rescale =>
      (onRescale op rescale thisWorker, { output := [.rescale rescale] })
  | .suspendMarker =>
      ({ op with
        partitions := op.partitions.mapValues source.builder.suspend },
        { output := [.suspendMarker] })
  | .interrogate =>
      (op, { output := [.interrogate], report := .keys op.partitions.keys })
  | .collect key =>
      match op.partitions.get? key with
      | some partition =>
          ({ op with partitions := op.partitions.swapRemove key },
            { output := [.collect key]
              report := .state source.operatorId
                (source.encode (source.builder.collect partition)) })
      | none => (op, { output := [.collect key] })
  | .acquire acquire =>
      let taken := acquire.takeState source.operatorId
      ({ op with
          partitions := match taken.1 with
            | some (part, state) => op.partitions.insert part
                (source.builder.buildPart part (some (source.decode state)))
            | none => op.partitions },
        { output := [.acquire taken.2] })

end StatefulSource

end Malstrom.Sources
