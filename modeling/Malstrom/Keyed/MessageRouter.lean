import Malstrom.Keyed.Types

namespace Malstrom.Keyed

open Data

variable {K V T : Type}

/-! The router of a distributor decides which worker a record goes to.  While
the worker set does not change it is `normal`; a rescale takes it through
`interrogate`, `collect` and `finished` back to `normal`. -/

structure NormalRouter where
  workerSet : IndexSet WorkerId
  version : Version

structure InterrogateRouter (K : Type) where
  version : Version
  oldWorkerSet : IndexSet WorkerId
  newWorkerSet : IndexSet WorkerId
  interrogateMsg : Interrogate K
  trigger : RescaleMessage

structure CollectRouter (K V T : Type) where
  version : Version
  whitelist : IndexSet K
  oldWorkerSet : IndexSet WorkerId
  newWorkerSet : IndexSet WorkerId
  /-- Records of the key which is being collected. -/
  buffered : List (DataMessage K V T)
  currentCollect : Option (Collect K)
  trigger : RescaleMessage

structure FinishedRouter where
  version : Version
  oldWorkerSet : IndexSet WorkerId
  newWorkerSet : IndexSet WorkerId
  trigger : RescaleMessage

inductive MessageRouter (K V T : Type) where
  | normal (router : NormalRouter)
  | interrogate (router : InterrogateRouter K)
  | collect (router : CollectRouter K V T)
  | finished (router : FinishedRouter)

namespace NormalRouter

def routeMessage (router : NormalRouter) (key : K)
    (partitioner : WorkerPartitioner K) : WorkerId :=
  partitioner key router.workerSet

end NormalRouter

namespace InterrogateRouter

/-- The second component is the interrogation sent downstream. -/
def new (version : Version) (oldWorkerSet : IndexSet WorkerId)
    (trigger : RescaleMessage) (partitioner : WorkerPartitioner K) :
    InterrogateRouter K :=
  let keyNeedsToBeMoved := fun key =>
    decide (partitioner key oldWorkerSet ≠ partitioner key trigger.workers)
  { version := version
    oldWorkerSet := oldWorkerSet
    newWorkerSet := trigger.workers
    interrogateMsg := Interrogate.new keyNeedsToBeMoved
    trigger := trigger }

def routeMessage [DecidableEq K] (router : InterrogateRouter K) (key : K)
    (partitioner : WorkerPartitioner K) (thisWorker : WorkerId) :
    InterrogateRouter K × WorkerId :=
  let oldTarget := partitioner key router.oldWorkerSet
  let newTarget := partitioner key router.newWorkerSet
  match decide (oldTarget = thisWorker), decide (newTarget = thisWorker) with
  | true, false =>
      ({ router with interrogateMsg := router.interrogateMsg.addKeys [key] },
        thisWorker)
  | true, true => (router, thisWorker)
  | false, _ => (router, oldTarget)

end InterrogateRouter

namespace CollectRouter

def new (whitelist : IndexSet K) (oldWorkerSet newWorkerSet : IndexSet WorkerId)
    (trigger : RescaleMessage) : CollectRouter K V T :=
  { version := trigger.version
    whitelist := whitelist
    oldWorkerSet := oldWorkerSet
    newWorkerSet := newWorkerSet
    buffered := []
    currentCollect := none
    trigger := trigger }

def isCollecting [DecidableEq K] (router : CollectRouter K V T) (key : K) :
    Bool :=
  match router.currentCollect with
  | some collect => decide (collect.key = key)
  | none => false

def routeMessage [DecidableEq K] (router : CollectRouter K V T)
    (message : DataMessage K V T) (partitioner : WorkerPartitioner K)
    (thisWorker sender : WorkerId) :
    CollectRouter K V T × Option (DataMessage K V T × WorkerId) :=
  let newTarget := partitioner message.key router.newWorkerSet
  let inWhitelist := decide (message.key ∈ router.whitelist)
  let toBeBuffered := router.isCollecting message.key
  match decide (newTarget = thisWorker), inWhitelist, toBeBuffered with
  | false, true, _ => (router, some (message, thisWorker))
  | false, false, true =>
      ({ router with buffered := router.buffered ++ [message] }, none)
  | false, false, false => (router, some (message, newTarget))
  | true, _, _ =>
      let oldTarget := partitioner message.key router.oldWorkerSet
      if oldTarget = sender then (router, some (message, thisWorker))
      else (router, some (message, oldTarget))

/-- Start the collection of the next key unless one is under way.  The second
component is what goes downstream. -/
def setAndEmitCollect (router : CollectRouter K V T) :
    CollectRouter K V T × List (Message K V T) :=
  match router.currentCollect with
  | some _ => (router, [])
  | none =>
      match router.whitelist.pop with
      | none => (router, [])
      | some (key, rest) =>
          ({ router with
              whitelist := rest
              currentCollect := some (Collect.new key) },
            [.collect key])

end CollectRouter

namespace FinishedRouter

def new (oldWorkerSet newWorkerSet : IndexSet WorkerId)
    (trigger : RescaleMessage) : FinishedRouter :=
  { version := trigger.version
    oldWorkerSet := oldWorkerSet
    newWorkerSet := newWorkerSet
    trigger := trigger }

def routeMessage (router : FinishedRouter) (key : K)
    (partitioner : WorkerPartitioner K) (thisWorker sender : WorkerId)
    (remotes : Remotes T) : WorkerId :=
  let newTarget := partitioner key router.newWorkerSet
  if newTarget = thisWorker then
    let oldTarget := partitioner key router.oldWorkerSet
    if oldTarget = newTarget then newTarget
    else if oldTarget = sender then thisWorker
    -- the old target has upgraded, so it has given up the state of the key
    else if ((remotes.get? oldTarget).map fun state =>
        decide (state.lastVersion = some router.version)).getD false then
      newTarget
    else oldTarget
  else newTarget

/-- Every remote has reached our version and knows that we have. -/
def allUpgraded (router : FinishedRouter) (remotes : Remotes T) : Bool :=
  remotes.values.all fun state =>
    decide (state.lastVersion = some router.version) &&
      decide (state.lastAckVersion = some router.version)

end FinishedRouter

namespace MessageRouter

def new (workerSet : IndexSet WorkerId) (version : Version) :
    MessageRouter K V T :=
  .normal { workerSet := workerSet, version := version }

def version : MessageRouter K V T → Version
  | .normal router => router.version
  | .interrogate router => router.version
  | .collect router => router.version
  | .finished router => router.version

/-- The target of a record, or `none` where the router keeps it. -/
def routeMessage [DecidableEq K] (router : MessageRouter K V T)
    (message : DataMessage K V T) (messageVersion : Option Version)
    (partitioner : WorkerPartitioner K) (thisWorker sender : WorkerId)
    (remotes : Remotes T) :
    MessageRouter K V T × Option (DataMessage K V T × WorkerId) :=
  if messageVersion.any fun version => decide (version > router.version) then
    (router, some (message, thisWorker))
  else
    match router with
    | .normal normalState =>
        (router, some (message, normalState.routeMessage message.key partitioner))
    | .interrogate interrogateState =>
        let routed :=
          interrogateState.routeMessage message.key partitioner thisWorker
        (.interrogate routed.1, some (message, routed.2))
    | .collect collectState =>
        let routed :=
          collectState.routeMessage message partitioner thisWorker sender
        (.collect routed.1, routed.2)
    | .finished finishedState =>
        (router, some (message, finishedState.routeMessage message.key
          partitioner thisWorker sender remotes))

/-- A rescale message which finds the router busy is a copy of the one it is
working on, and is ignored.  The second component goes downstream. -/
def handleRescale (router : MessageRouter K V T) (message : RescaleMessage)
    (partitioner : WorkerPartitioner K) :
    MessageRouter K V T × List (Message K V T) :=
  match router with
  | .normal normalRouter =>
      (.interrogate (InterrogateRouter.new normalRouter.version
        normalRouter.workerSet message partitioner), [.interrogate])
  | busy => (busy, [])

end MessageRouter

end Malstrom.Keyed
