import Malstrom.Data.Link
import Malstrom.Keyed.MessageRouter

namespace Malstrom.Keyed

open Data

variable {K V T : Type}

/-- What aborts the worker: the lookup of a routing target or of an acquire's
target which finds no client, and a snapshot taken at another scale. -/
inductive Panic where
  | messageRouting
  | acquireTarget
  | wrongScale (buildScale snapshotScale : Nat)
  deriving DecidableEq

/-- What a handler hands downstream and what it sends to other workers, each
in order. -/
structure Effects (K V T : Type) where
  output : List (Message K V T) := []
  network : List (WorkerId × NetworkMessage K V T) := []

def Effects.append (first second : Effects K V T) : Effects K V T :=
  { output := first.output ++ second.output
    network := first.network ++ second.network }

def Remotes.ofWorkers (workers : IndexSet WorkerId) : Remotes T :=
  ⟨workers.items.map fun worker => (worker, {}), by
    simpa [Function.comp_def] using workers.nodup⟩

@[simp] theorem Remotes.mem_ofWorkers {workers : IndexSet WorkerId}
    {worker : WorkerId} :
    worker ∈ (Remotes.ofWorkers workers : Remotes T) ↔ worker ∈ workers := by
  simp [Remotes.ofWorkers, IndexMap.mem_def, IndexMap.keys, IndexSet.mem_def]

theorem Remotes.get?_ofWorkers (workers : IndexSet WorkerId)
    (worker : WorkerId) :
    (Remotes.ofWorkers workers : Remotes T).get? worker =
      if worker ∈ workers then some {} else none := by
  split
  next member =>
    exact IndexMap.get?_eq_some.mpr (List.mem_map_of_mem member)
  next absent =>
    exact IndexMap.get?_eq_none.mpr (mt Remotes.mem_ofWorkers.mp absent)

def broadcast (remotes : Remotes T) (message : NetworkMessage K V T) :
    List (WorkerId × NetworkMessage K V T) :=
  remotes.keys.map fun worker => (worker, message)

theorem addressedTo_broadcast (remotes : Remotes T)
    (message : NetworkMessage K V T) (target : WorkerId) :
    Links.addressedTo target (broadcast remotes message) =
      if target ∈ remotes then [message] else [] := by
  simpa [broadcast, IndexMap.mem_def] using
    Links.addressedTo_broadcast remotes.keys remotes.nodup message target

namespace InterrogateRouter

def lifecycle (router : InterrogateRouter K) (clones : Nat) :
    MessageRouter K V T :=
  match router.interrogateMsg.tryUnwrap clones with
  | .ok whitelist =>
      .collect (CollectRouter.new whitelist router.oldWorkerSet
        router.newWorkerSet router.trigger)
  | .error interrogateMsg =>
      .interrogate { router with interrogateMsg := interrogateMsg }

end InterrogateRouter

namespace CollectRouter

/-- With nothing under collection and nothing left to collect the router
announces the new version and is finished. -/
def conclude (router : CollectRouter K V T) (remotes : Remotes T)
    (effects : Effects K V T) : MessageRouter K V T × Effects K V T :=
  if router.currentCollect.isNone && router.whitelist.isEmpty then
    (.finished (FinishedRouter.new router.oldWorkerSet router.newWorkerSet
        router.trigger),
      effects.append
        { network := broadcast remotes (.upgrade router.version) })
  else (.collect router, effects)

def lifecycle (router : CollectRouter K V T)
    (partitioner : WorkerPartitioner K) (remotes : Remotes T) (clones : Nat) :
    Except Panic (MessageRouter K V T × Effects K V T) :=
  match router.currentCollect with
  | none =>
      let emitted := router.setAndEmitCollect
      .ok (emitted.1.conclude remotes { output := emitted.2 })
  | some collect =>
      match collect.tryIntoAcquire clones with
      | .error collect =>
          .ok ({ router with currentCollect := some collect }.conclude remotes {})
      | .ok acquire =>
          let target := partitioner acquire.key router.newWorkerSet
          match remotes.get? target with
          | none => .error .acquireTarget
          | some _ =>
              let flushed := router.buffered.map fun message =>
                (target, .data { content := message, version := router.version })
              let emitted := { router with
                buffered := [], currentCollect := none }.setAndEmitCollect
              .ok (emitted.1.conclude remotes
                { output := emitted.2
                  network := (target, .acquire acquire) :: flushed })

end CollectRouter

namespace FinishedRouter

/-- Back to normal once every remote has upgraded and acknowledged; the
clients of removed workers are dropped. -/
def lifecycle (router : FinishedRouter) (remotes : Remotes T) :
    MessageRouter K V T × Remotes T × Effects K V T :=
  if router.allUpgraded remotes then
    (.normal { workerSet := router.newWorkerSet, version := router.version },
      remotes.swapRemoveAll
        (router.oldWorkerSet.difference router.newWorkerSet).items,
      { output := [.rescale router.trigger] })
  else (.finished router, remotes, {})

end FinishedRouter

/-- `clones` counts the clones of the router's cell which still exist
elsewhere. -/
def MessageRouter.lifecycle (router : MessageRouter K V T)
    (partitioner : WorkerPartitioner K) (remotes : Remotes T) (clones : Nat) :
    Except Panic (MessageRouter K V T × Remotes T × Effects K V T) :=
  match router with
  | .normal normalRouter => .ok (.normal normalRouter, remotes, {})
  | .interrogate interrogateRouter =>
      .ok (interrogateRouter.lifecycle clones, remotes, {})
  | .collect collectRouter =>
      match collectRouter.lifecycle partitioner remotes clones with
      | .ok (next, effects) => .ok (next, remotes, effects)
      | .error panic => .error panic
  | .finished finishedRouter => .ok (finishedRouter.lifecycle remotes)

structure Distributor (K V T : Type) where
  router : MessageRouter K V T
  remotes : Remotes T
  /-- A local barrier waits for the remotes. -/
  localBarrier : Bool := false
  localShutdown : Bool := false
  localFrontier : Option T := none

structure DistributorState (T : Type) where
  router : NormalRouter
  remoteStates : IndexMap WorkerId (RemoteState T)
  localFrontier : Option T

namespace Distributor

/-- Without a snapshot a worker starts normal at version 0 with the workers it
was built with. -/
def fresh (thisWorker : WorkerId) (workerIds : IndexSet WorkerId) :
    Distributor K V T :=
  { router := MessageRouter.new workerIds 0
    remotes := Remotes.ofWorkers
      (workerIds.difference (IndexSet.ofList [thisWorker])) }

def new (thisWorker : WorkerId) (workerIds : IndexSet WorkerId)
    (snapshot : Option (DistributorState T)) :
    Except Panic (Distributor K V T) :=
  match snapshot with
  | some restored =>
      let otherWorkers := workerIds.difference (IndexSet.ofList [thisWorker])
      if restored.remoteStates.entries.length ≠ otherWorkers.items.length then
        .error (.wrongScale workerIds.items.length
          (restored.remoteStates.entries.length + 1))
      else
        .ok { router := .normal restored.router
              remotes := Remotes.ofWorkers otherWorkers
              localFrontier := restored.localFrontier }
  | none => .ok (fresh thisWorker workerIds)

def sendDataMessage (distributor : Distributor K V T)
    (message : DataMessage K V T) (target thisWorker : WorkerId) :
    Except Panic (Effects K V T) :=
  if target = thisWorker then .ok { output := [.data message] }
  else
    match distributor.remotes.get? target with
    | none => .error .messageRouting
    | some _ =>
        .ok { network := [(target, .data
          { content := message, version := distributor.router.version })] }

def handleDataMessage [DecidableEq K] (distributor : Distributor K V T)
    (message : DataMessage K V T) (messageVersion : Option Version)
    (partitioner : WorkerPartitioner K) (thisWorker sender : WorkerId) :
    Except Panic (Distributor K V T × Effects K V T) :=
  let routing := distributor.router.routeMessage message messageVersion
    partitioner thisWorker sender distributor.remotes
  let routed := { distributor with router := routing.1 }
  match routing.2 with
  | none => .ok (routed, {})
  | some (kept, target) =>
      match routed.sendDataMessage kept target thisWorker with
      | .ok effects => .ok (routed, effects)
      | .error panic => .error panic

def handleLocalDataMessage [DecidableEq K] (distributor : Distributor K V T)
    (message : DataMessage K V T) (partitioner : WorkerPartitioner K)
    (thisWorker : WorkerId) :
    Except Panic (Distributor K V T × Effects K V T) :=
  distributor.handleDataMessage message none partitioner thisWorker thisWorker

def handleRemoteDataMessage [DecidableEq K] (distributor : Distributor K V T)
    (message : NetworkDataMessage K V T) (sentBy : WorkerId)
    (partitioner : WorkerPartitioner K) (thisWorker : WorkerId) :
    Except Panic (Distributor K V T × Effects K V T) :=
  distributor.handleDataMessage message.content (some message.version)
    partitioner thisWorker sentBy

/-- The epoch every remote and the local upstream have reached, if any. -/
def handleEpoch [MaybeTime T] (distributor : Distributor K V T) :
    Effects K V T :=
  let timestamps := distributor.remotes.values.map RemoteState.frontier ++
    [distributor.localFrontier]
  match MaybeTime.mergeTimestamps timestamps with
  | some toEmit => { output := [.epoch toEmit] }
  | none => {}

def handleLocalBarrier (distributor : Distributor K V T) :
    Distributor K V T × Effects K V T :=
  ({ distributor with localBarrier := true },
    { network := broadcast distributor.remotes .barrierMarker })

def addRemotes (remotes : Remotes T) (workers : List WorkerId)
    (thisWorker : WorkerId) : Remotes T :=
  workers.foldl (fun current worker =>
    if worker ∉ current ∧ worker ≠ thisWorker then current.insert worker {}
    else current) remotes

theorem mem_addRemotes {remotes : Remotes T}
    {workers : List WorkerId} {thisWorker candidate : WorkerId} :
    candidate ∈ addRemotes remotes workers thisWorker ↔
      candidate ∈ remotes ∨ candidate ∈ workers ∧ candidate ≠ thisWorker := by
  induction workers generalizing remotes with
  | nil => simp [addRemotes]
  | cons head tail ih =>
      have step : addRemotes remotes (head :: tail) thisWorker =
          addRemotes
            (if head ∉ remotes ∧ head ≠ thisWorker then remotes.insert head {}
              else remotes) tail thisWorker := rfl
      rw [step, ih, List.mem_cons]
      split
      next added =>
        rw [IndexMap.mem_insert]
        grind
      next present => grind

def handleRescaleMessage (distributor : Distributor K V T)
    (message : RescaleMessage) (partitioner : WorkerPartitioner K)
    (thisWorker : WorkerId) : Distributor K V T × Effects K V T :=
  let handled := distributor.router.handleRescale message partitioner
  ({ distributor with
      remotes :=
        addRemotes distributor.remotes message.workers.items thisWorker
      router := handled.1 },
    { output := handled.2 })

/-- Emit the barrier once the local upstream and every remote have one. -/
def tryEmitBarrier (distributor : Distributor K V T) :
    Distributor K V T × Effects K V T :=
  if distributor.localBarrier &&
      distributor.remotes.values.all fun state =>
        state.isBarred || state.sentSuspend then
    ({ distributor with
        localBarrier := false
        remotes := distributor.remotes.mapValues fun state =>
          { state with isBarred := false } },
      { output := [.absBarrier] })
  else (distributor, {})

def tryEmitShutdown (distributor : Distributor K V T) :
    Distributor K V T × Effects K V T :=
  if distributor.localShutdown &&
      distributor.remotes.values.all fun state => state.sentSuspend then
    ({ distributor with localShutdown := false },
      { output := [.suspendMarker] })
  else (distributor, {})

/-- Messages of a barred or suspended remote are left in its channel. -/
def canReceive (distributor : Distributor K V T) (remote : WorkerId) : Bool :=
  match distributor.remotes.get? remote with
  | some state => !state.isBarred && !state.sentSuspend
  | none => false

def receiveRemote [DecidableEq K] [MaybeTime T]
    (distributor : Distributor K V T) (remote : WorkerId)
    (message : NetworkMessage K V T) (partitioner : WorkerPartitioner K)
    (thisWorker : WorkerId) :
    Except Panic (Distributor K V T × Effects K V T) :=
  let setRemote := fun change : RemoteState T → RemoteState T =>
    { distributor with remotes := distributor.remotes.modify remote change }
  match message with
  | .data dataMessage =>
      distributor.handleRemoteDataMessage dataMessage remote partitioner
        thisWorker
  | .epoch epoch =>
      let updated := setRemote fun state => { state with frontier := some epoch }
      .ok (updated, updated.handleEpoch)
  | .barrierMarker =>
      .ok (setRemote fun state => { state with isBarred := true }, {})
  | .suspendMarker =>
      .ok (setRemote fun state => { state with sentSuspend := true }, {})
  | .acquire networkAcquire =>
      .ok (distributor, { output := [.acquire networkAcquire.toAcquire] })
  | .upgrade version =>
      .ok (setRemote fun state => { state with lastVersion := some version },
        { network := [(remote, .ackUpgrade version)] })
  | .ackUpgrade version =>
      .ok (setRemote fun state =>
        { state with lastAckVersion := some version }, {})

def receiveLocal [DecidableEq K] [MaybeTime T]
    (distributor : Distributor K V T) (message : Message K V T)
    (partitioner : WorkerPartitioner K) (thisWorker : WorkerId) :
    Except Panic (Distributor K V T × Effects K V T) :=
  match message with
  | .data dataMessage =>
      distributor.handleLocalDataMessage dataMessage partitioner thisWorker
  | .epoch epoch =>
      let updated := { distributor with localFrontier := some epoch }
      .ok (updated, Effects.append
        { network := broadcast distributor.remotes (.epoch epoch) }
        updated.handleEpoch)
  | .absBarrier => .ok distributor.handleLocalBarrier
  | .rescale rescale =>
      .ok (distributor.handleRescaleMessage rescale partitioner thisWorker)
  | .suspendMarker =>
      .ok ({ distributor with localShutdown := true },
        { network := broadcast distributor.remotes .suspendMarker })
  | .interrogate | .collect _ | .acquire _ => .ok (distributor, {})

def lifecycle (distributor : Distributor K V T)
    (partitioner : WorkerPartitioner K) (clones : Nat) :
    Except Panic (Distributor K V T × Effects K V T) :=
  match distributor.router.lifecycle partitioner distributor.remotes clones with
  | .ok (router, remotes, effects) =>
      .ok ({ distributor with router := router, remotes := remotes }, effects)
  | .error panic => .error panic

end Distributor

end Malstrom.Keyed
