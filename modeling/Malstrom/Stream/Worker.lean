import Mathlib.Algebra.BigOperators.Group.List.Lemmas
import Mathlib.Algebra.GroupWithZero.Nat
import Malstrom.Data.Transition
import Malstrom.Stream.Operator

namespace Malstrom.Stream

open Data Channels Keyed Operators

variable {K V T S E : Type}

/-! A worker schedules the operators of its streams and takes one procedure of
the coordinator after the other. -/

inductive Kind (K V T S E : Type) where
  | logic (logic : Logic K V T S E) (initial : S)
  | distribute (partitioner : WorkerPartitioner K)

def Kind.forwards : Kind K V T S E → Bool
  | .logic built _ => built.forwards
  | .distribute _ => true

/-- The operators in the order in which their streams were finished: a stream
is finished before another one is made from it. -/
structure Graph (K V T S E : Type) where
  size : Nat
  name : Nat → String
  operatorId : Nat → OperatorId
  kind : Nat → Kind K V T S E
  /-- What each channel of an operator comes from; `none` is the root. -/
  upstream : Nat → List (Option Nat)
  /-- The records which go into a channel, by target and channel. -/
  carries : Nat → Nat → DataMessage K V T → Bool
  linked : ∀ operator < size, upstream operator ≠ []
  earlier : ∀ operator < size, ∀ source,
    some source ∈ upstream operator → source < operator
  /-- Nothing comes from a sink. -/
  forwards : ∀ operator < size, ∀ source,
    some source ∈ upstream operator → (kind source).forwards = true

/-- Operators of which each is linked to the one before. -/
def Graph.inRow (size : Nat) (operatorId : Nat → OperatorId)
    (kind : Nat → Kind K V T S E)
    (forwards : ∀ operator, operator + 1 < size →
      (kind operator).forwards = true) : Graph K V T S E where
  size := size
  name operator := toString operator
  operatorId := operatorId
  kind := kind
  upstream
    | 0 => [none]
    | operator + 1 => [some operator]
  carries _ _ _ := true
  linked := by
    intro operator inGraph
    cases operator <;> simp
  earlier := by
    intro operator inGraph source member
    cases operator with
    | zero => simp at member
    | succ before => simp at member; omega
  forwards := by
    intro operator inGraph source member
    cases operator with
    | zero => simp at member
    | succ before =>
        obtain rfl : source = before := by simpa using member
        exact forwards source inGraph

structure BuildContext where
  workerId : WorkerId
  workerIds : IndexSet WorkerId
  listed : workerId ∈ workerIds

inductive Procedure where
  | reconfig (message : RescaleMessage)
  | snapshot
  | suspend
  deriving DecidableEq

def Procedure.message : Procedure → Message K V T
  | .reconfig message => .rescale message
  | .snapshot => .absBarrier
  | .suspend => .suspendMarker

structure Log (K V T S E : Type) where
  /-- The body at the command. -/
  origin : Body K V T S E
  /-- What each channel held at the command, and what came after that. -/
  sent : Nat → List (Message K V T)
  turns : List (Turn K V T E)
  handed : List (Message K V T)

structure Worker (K V T S E : Type) where
  operators : Nat → StandardOperator K V T S E
  procedure : Option Procedure
  /-- What was written to the persistence client of the last snapshot. -/
  persisted : List (OperatorId × Bytes)
  logs : Nat → Log K V T S E

inductive Worker.Event (K V T S E : Type) where
  /-- A procedure of the coordinator begins. -/
  | command (procedure : Procedure)
  | step (operator : Nat) (call : Call E)
  | deliver (operator : Nat) (remote : WorkerId)
      (message : NetworkMessage K V T)
  /-- An operator further down writes into a router's cell. -/
  | report (operator : Nat) (report : Report K S)

/-! ### Channels -/

def sendAll (input : Input K V T) (messages : Nat → List (Message K V T)) :
    Input K V T :=
  { input with receivers := input.receivers.mapIdx fun channel upstream =>
      { upstream with receiver := upstream.receiver ++ messages channel } }

namespace Graph

/-- Records are partitioned, everything else is broadcast. -/
def carried (graph : Graph K V T S E) (target channel : Nat) :
    Message K V T → Bool
  | .data message => graph.carries target channel message
  | _ => true

/-- What goes into a channel of the messages of one source. -/
def routed (graph : Graph K V T S E) (source : Option Nat)
    (messages : List (Message K V T)) (target channel : Nat) :
    List (Message K V T) :=
  if (graph.upstream target)[channel]? = some source then
    messages.filter (graph.carried target channel)
  else []

end Graph

def Log.start (operator : StandardOperator K V T S E) : Log K V T S E :=
  { origin := operator.body, sent := operator.input.queue, turns := []
    handed := [] }

def Log.received (log : Log K V T S E) (channel : Nat) :
    List (Message K V T) :=
  log.turns.flatMap fun turn => turn.left channel

namespace Worker

def hand (worker : Worker K V T S E) (graph : Graph K V T S E)
    (source : Option Nat) (messages : List (Message K V T)) :
    Worker K V T S E :=
  { worker with
    operators := fun target =>
      { worker.operators target with
        input := sendAll (worker.operators target).input
          (graph.routed source messages target) }
    logs := fun target =>
      { worker.logs target with
        sent := fun channel => (worker.logs target).sent channel ++
          graph.routed source messages target channel } }

def install (worker : Worker K V T S E) (graph : Graph K V T S E)
    (operator : Nat) (call : Call E) (stepped : Stepped K V T S E) :
    Worker K V T S E :=
  { worker with
    operators := Function.update worker.operators operator stepped.operator
    persisted := worker.persisted ++
      stepped.written.toList.map fun state => (graph.operatorId operator, state)
    logs := Function.update worker.logs operator
      { worker.logs operator with
        turns := (worker.logs operator).turns ++
          [stepped.turn call (worker.operators operator).input]
        handed := (worker.logs operator).handed ++ stepped.output } }

def begin (worker : Worker K V T S E) (graph : Graph K V T S E)
    (procedure : Procedure) : Worker K V T S E :=
  { worker with
    procedure := some procedure
    persisted := []
    logs := fun operator => Log.start (worker.operators operator) }.hand graph
      none [procedure.message]

variable [DecidableEq K] [MaybeTime T] [LT T] [DecidableLT T]

def act (graph : Graph K V T S E) (workerId : WorkerId)
    (worker : Worker K V T S E) :
    Event K V T S E → Except RunPanic (Worker K V T S E)
  | .command procedure => .ok (worker.begin graph procedure)
  | .step operator call =>
      match (worker.operators operator).step workerId call with
      | .error panic => .error panic
      | .ok stepped =>
          .ok ((worker.install graph operator call stepped).hand graph
            (some operator) stepped.output)
  | .deliver operator remote message =>
      let current := worker.operators operator
      .ok { worker with
        operators := Function.update worker.operators operator
          { current with
            mail := Function.update current.mail remote
              (current.mail remote ++ [message]) } }
  | .report operator report =>
      let current := worker.operators operator
      .ok { worker with
        operators := Function.update worker.operators operator
          { current with body := current.body.takeReport report } }

end Worker

/-- Clones of counted messages which an operator has or which are on the way to
it. -/
def StandardOperator.clones (operator : StandardOperator K V T S E) : Nat :=
  (operator.input.receivers.map fun upstream =>
    upstream.receiver.countP Message.isCounted).sum +
      operator.body.held.length

namespace Worker

/-- The clones of the message of the current procedure: that of the worker and
those in its graph. -/
def strongCount (worker : Worker K V T S E) (graph : Graph K V T S E) : Nat :=
  1 + ((List.range graph.size).map fun operator =>
    (worker.operators operator).clones).sum

/-- The worker has not been removed or suspended. -/
def continues (worker : Worker K V T S E) (workerId : WorkerId) : Prop :=
  match worker.procedure with
  | none | some .snapshot => True
  | some (.reconfig message) => workerId ∈ message.workers
  | some .suspend => False

instance (worker : Worker K V T S E) (workerId : WorkerId) :
    Decidable (worker.continues workerId) :=
  match current : worker.procedure with
  | none => isTrue (by simp [continues, current])
  | some .snapshot => isTrue (by simp [continues, current])
  | some (.reconfig message) =>
      decidable_of_iff (workerId ∈ message.workers)
        (by simp [continues, current])
  | some .suspend => isFalse (by simp [continues, current])

/-- A procedure begins when the loop of the previous one has ended. -/
def allowed (graph : Graph K V T S E) (workerId : WorkerId)
    (worker : Worker K V T S E) : Event K V T S E → Prop
  | .command _ => worker.strongCount graph ≤ 1 ∧ worker.continues workerId
  | .step operator _ => operator < graph.size
  | .deliver _ _ _ | .report _ _ => True

instance (graph : Graph K V T S E) (workerId : WorkerId)
    (worker : Worker K V T S E) :
    (event : Event K V T S E) → Decidable (worker.allowed graph workerId event)
  | .command _ => inferInstanceAs (Decidable
      (worker.strongCount graph ≤ 1 ∧ worker.continues workerId))
  | .step operator _ => inferInstanceAs (Decidable (operator < graph.size))
  | .deliver _ _ _ | .report _ _ => isTrue trivial

end Worker

/-! ### Building a worker -/

inductive WorkerExecutionError where
  | nonUniqueName (name : String)
  deriving DecidableEq

namespace Graph

/-- Operators are told apart by the hash of their name. -/
def checkNames (graph : Graph K V T S E) (seenIds : List OperatorId) :
    List Nat → Except WorkerExecutionError Unit
  | [] => .ok ()
  | operator :: rest =>
      if graph.operatorId operator ∈ seenIds then
        .error (.nonUniqueName (graph.name operator))
      else graph.checkNames (graph.operatorId operator :: seenIds) rest

def intoRunnable (graph : Graph K V T S E) (context : BuildContext)
    (operator : Nat) : StandardOperator K V T S E :=
  { body := match graph.kind operator with
      | .logic logic initial => .logic logic initial
      -- nothing is ever written for a distributor, so there is no snapshot
      | .distribute partitioner => .distributor partitioner
          (Distributor.fresh context.workerId context.workerIds)
    input :=
      { receivers := (graph.upstream operator).map fun _ => {}
        frontier := none } }

def execute (graph : Graph K V T S E) (context : BuildContext) :
    Except WorkerExecutionError (Worker K V T S E) :=
  match graph.checkNames [] (List.range graph.size) with
  | .error rejected => .error rejected
  | .ok () =>
      .ok { operators := graph.intoRunnable context
            procedure := none
            persisted := []
            logs := fun operator =>
              Log.start (graph.intoRunnable context operator) }

end Graph

end Malstrom.Stream
