import Malstrom.Data.Link
import Malstrom.Data.Transition
import Malstrom.Keyed.Distributor
import Malstrom.Operators.StatefulOp

namespace Malstrom.Keyed

open Data Operators

variable {K V T VO S L : Type}

/-! Workers which run the distributor of one operator id, each in front of one
stateful operator, over first-in first-out links. -/

structure Worker (K V T VO S L : Type) where
  distributor : Distributor K V T
  /-- Channel from the distributor to the stateful operator. -/
  queue : List (Message K V T) := []
  operator : OperatorState K S L
  /-- Channel from the stateful operator to the rest of the region. -/
  downstream : List (Message K VO T) := []
  /-- Everything taken from the local upstream so far. -/
  taken : List (Message K V T) := []
  /-- Everything handed to the stateful operator's channel so far. -/
  handed : List (Message K V T) := []
  /-- Everything sent to other workers so far. -/
  sent : List (WorkerId × NetworkMessage K V T) := []

/-- Clones of the router's cell which have not been dropped yet. -/
def Worker.clones (worker : Worker K V T VO S L) : Nat :=
  worker.queue.countP Message.isClone + worker.downstream.countP Message.isClone

structure System (K V T VO S L : Type) where
  workers : WorkerId → Worker K V T VO S L
  links : Links WorkerId (NetworkMessage K V T)

inductive Event (K V T : Type) where
  | receiveRemote (worker remote : WorkerId)
  | receiveLocal (worker : WorkerId) (message : Message K V T)
  | tryEmitBarrier (worker : WorkerId)
  | tryEmitShutdown (worker : WorkerId)
  | lifecycle (worker : WorkerId)
  /-- The stateful operator is scheduled. -/
  | operator (worker : WorkerId)
  /-- The rest of the region drops one message. -/
  | sink (worker : WorkerId)

def Event.worker : Event K V T → WorkerId
  | .receiveRemote worker _ | .receiveLocal worker _ | .tryEmitBarrier worker
  | .tryEmitShutdown worker | .lifecycle worker | .operator worker
  | .sink worker => worker

/-- One call of a distributor's `run`: a message of each remote that has one,
a message of the local upstream, and what follows in every call. -/
def Event.run (worker : WorkerId) (remotes : List WorkerId)
    (message : Option (Message K V T)) : List (Event K V T) :=
  remotes.map (.receiveRemote worker) ++
    message.toList.map (.receiveLocal worker) ++
    [.tryEmitBarrier worker, .tryEmitShutdown worker, .lifecycle worker]

structure Job (K V T VO S L : Type) where
  partitioner : WorkerPartitioner K
  operator : StatefulOp K V T VO S L
  /-- What a newly built logic remembers. -/
  memory : L

def Worker.build (job : Job K V T VO S L) (thisWorker : WorkerId)
    (workerIds : IndexSet WorkerId) : Worker K V T VO S L :=
  { distributor := Distributor.fresh thisWorker workerIds
    operator := { state := IndexMap.empty, memory := job.memory } }

def Running (workers : IndexSet WorkerId) (version : Version)
    (system : System K V T VO S L) : Prop :=
  ∀ worker ∈ workers,
    (system.workers worker).distributor.router = .normal ⟨workers, version⟩ ∧
    ∀ other, other ∈ (system.workers worker).distributor.remotes ↔
      other ∈ workers ∧ other ≠ worker

def System.initial (job : Job K V T VO S L) (workers : IndexSet WorkerId) :
    System K V T VO S L :=
  { workers := fun worker => Worker.build job worker workers
    links := fun _ _ => [] }

theorem mem_build_remotes {job : Job K V T VO S L} {worker other : WorkerId}
    {workers : IndexSet WorkerId} :
    other ∈ (Worker.build job worker workers).distributor.remotes ↔
      other ∈ workers ∧ other ≠ worker := by
  simp [Worker.build, Distributor.fresh]

theorem Running.initial (job : Job K V T VO S L) (workers : IndexSet WorkerId) :
    Running workers 0 (System.initial job workers) :=
  fun _ _ => ⟨rfl, fun _ => mem_build_remotes⟩

/-- Write what an operator reports into the router's cell. -/
def Distributor.takeReport [DecidableEq K] (distributor : Distributor K V T) :
    Report K S → Distributor K V T
  | .keys keys =>
      match distributor.router with
      | .interrogate router =>
          { distributor with
            router := .interrogate { router with
              interrogateMsg := router.interrogateMsg.addKeys keys } }
      | _ => distributor
  | .state operatorId state =>
      match distributor.router with
      | .collect router =>
          { distributor with
            router := .collect { router with
              currentCollect := router.currentCollect.map fun collect =>
                collect.addState operatorId state } }
      | _ => distributor
  | .nothing | .persist _ _ => distributor

namespace System

variable (job : Job K V T VO S L)

def setWorker (system : System K V T VO S L) (worker : WorkerId)
    (next : Worker K V T VO S L) : System K V T VO S L :=
  { system with workers := Function.update system.workers worker next }

/-- A handler of one worker is done: its output goes into the local channel,
its network messages into the links. -/
def install (system : System K V T VO S L) (worker : WorkerId)
    (current : Worker K V T VO S L)
    (result : Distributor K V T × Effects K V T) : System K V T VO S L :=
  { workers := Function.update system.workers worker
      { current with
        distributor := result.1
        queue := current.queue ++ result.2.output
        handed := current.handed ++ result.2.output
        sent := current.sent ++ result.2.network }
    links := system.links.sendAll worker result.2.network }

variable [DecidableEq K] [MaybeTime T]

def receiveRemote (system : System K V T VO S L) (worker remote : WorkerId) :
    Except Panic (System K V T VO S L) :=
  let current := system.workers worker
  if current.distributor.canReceive remote then
    match system.links remote worker with
    | [] => .ok system
    | message :: rest =>
        match current.distributor.receiveRemote remote message
            job.partitioner worker with
        | .ok result =>
            .ok ({ system with links := system.links.set remote worker rest
              }.install worker current result)
        | .error panic => .error panic
  else .ok system

/-- Nothing is taken from the local upstream while a barrier is pending. -/
def receiveLocal (system : System K V T VO S L) (worker : WorkerId)
    (message : Message K V T) : Except Panic (System K V T VO S L) :=
  let current := system.workers worker
  if current.distributor.localBarrier then .ok system
  else
    match current.distributor.receiveLocal message job.partitioner worker with
    | .ok result =>
        .ok (system.install worker
          { current with taken := current.taken ++ [message] } result)
    | .error panic => .error panic

def scheduleOperator (system : System K V T VO S L) (worker : WorkerId) :
    System K V T VO S L :=
  let current := system.workers worker
  let scheduled := job.operator.schedule current.operator
  match current.queue with
  | [] =>
      system.setWorker worker { current with
        operator := scheduled.1
        downstream := current.downstream ++ scheduled.2 }
  | message :: rest =>
      let received := job.operator.receive scheduled.1 message
      system.setWorker worker { current with
        distributor := current.distributor.takeReport received.2.2
        queue := rest
        operator := received.1
        downstream := current.downstream ++ scheduled.2 ++ received.2.1 }

def step (system : System K V T VO S L) :
    Event K V T → Except Panic (System K V T VO S L)
  | .receiveRemote worker remote => system.receiveRemote job worker remote
  | .receiveLocal worker message => system.receiveLocal job worker message
  | .tryEmitBarrier worker =>
      let current := system.workers worker
      .ok (system.install worker current current.distributor.tryEmitBarrier)
  | .tryEmitShutdown worker =>
      let current := system.workers worker
      .ok (system.install worker current current.distributor.tryEmitShutdown)
  | .lifecycle worker =>
      let current := system.workers worker
      match current.distributor.lifecycle job.partitioner current.clones with
      | .ok result => .ok (system.install worker current result)
      | .error panic => .error panic
  | .operator worker => .ok (system.scheduleOperator job worker)
  | .sink worker =>
      let current := system.workers worker
      .ok (system.setWorker worker
        { current with downstream := current.downstream.tail })

end System

end Malstrom.Keyed
