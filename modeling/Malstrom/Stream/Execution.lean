import Malstrom.Data.Link
import Malstrom.Stream.Wiring

namespace Malstrom.Stream

open Data Channels Keyed Operators

variable {K V T S E : Type}

/-! The workers of a job: each goes through its operators again and again, and
the messages of one operator to another worker come when they come. -/

/-- A graph with the last time of each stream, which a stream without
timestamps does not have. -/
structure Dataflow (K V T S E : Type) extends Graph K V T S E where
  inputMax : Nat → Option T
  outputMax : Nat → Option T
  typed : ∀ operator < size, ∀ source, some source ∈ upstream operator →
    outputMax source = inputMax operator
  /-- Distributing a stream does not change its timestamps. -/
  distributes : ∀ operator < size, ∀ partitioner,
    kind operator = .distribute partitioner →
      outputMax operator = inputMax operator

/-- A stream without timestamps is always finished. -/
def checkFinished [DecidableEq T] (max frontier : Option T) : Bool :=
  match max with
  | none => true
  | some last => decide (frontier = some last)

structure Output (K V T : Type) where
  /-- Everything sent into this output. -/
  sent : List (Message K V T) := []
  /-- The largest epoch of it. -/
  frontier : Option T := none

def Output.send [LT T] [DecidableLT T] (output : Output K V T)
    (message : Message K V T) : Output K V T where
  sent := output.sent ++ [message]
  frontier := match message with
    | .epoch epoch =>
        if output.frontier.all fun largest => largest < epoch then some epoch
        else output.frontier
    | _ => output.frontier

structure History (K V T : Type) where
  received : Nat → List (Message K V T) := fun _ => []
  taken : List (Message K V T) := []
  heard : List (WorkerId × NetworkMessage K V T) := []
  posted : List (WorkerId × NetworkMessage K V T) := []

/-- How far `step` has come: the operators before `remaining` are left. -/
structure Pass where
  remaining : Nat := 0
  /-- The last of them has been called. -/
  entered : Bool := false
  allDone : Bool := false

structure Running (K V T S E : Type) extends Worker K V T S E where
  pass : Pass := {}
  /-- The output of each operator, and that of the root. -/
  outputs : Option Nat → Output K V T := fun _ => {}
  histories : Nat → History K V T := fun _ => {}

/-! ### One worker -/

namespace StandardOperator

def reads (operator : StandardOperator K V T S E) :
    List (WorkerId × NetworkMessage K V T) :=
  match operator.body with
  | .logic _ _ => []
  | .distributor _ distributor => distributor.remoteMessages operator.mail

def posts [DecidableEq K] [MaybeTime T] [LT T] [DecidableLT T]
    (operator : StandardOperator K V T S E) (thisWorker : WorkerId)
    (call : Call E) : List (WorkerId × NetworkMessage K V T) :=
  match operator.body with
  | .logic _ _ => []
  | .distributor partitioner distributor =>
      match distributor.run operator.input operator.mail partitioner thisWorker
          call.clones with
      | .error _ => []
      | .ok result => result.effects.network

end StandardOperator

namespace Running

def due (running : Running K V T S E) : Option Nat :=
  match running.pass.remaining with
  | 0 => none
  | operator + 1 =>
      let current := running.operators operator
      if running.pass.entered then
        if current.hasQueuedWork then some operator else none
      else if current.isSuspended then none
      else some operator

def isFinalized [DecidableEq T] (running : Running K V T S E)
    (dataflow : Dataflow K V T S E) (operator : Nat) : Bool :=
  let input := (running.operators operator).input
  checkFinished (dataflow.outputMax operator)
      (running.outputs (some operator)).frontier &&
    checkFinished (dataflow.inputMax operator) input.frontier &&
    !input.canProgress

/-- No call is due: the next operator has its turn, or the next pass begins. -/
def proceed [DecidableEq T] (running : Running K V T S E)
    (dataflow : Dataflow K V T S E) : Running K V T S E :=
  { running with
    pass := match running.pass.remaining with
      | 0 => { remaining := dataflow.size, allDone := true }
      | operator + 1 =>
          { remaining := operator
            allDone := running.pass.allDone &&
              -- a suspended operator is passed over
              (!running.pass.entered ||
                running.isFinalized dataflow operator) } }

def Returned (running : Running K V T S E) : Prop :=
  running.pass.remaining = 0 ∧ running.pass.allDone = true

instance (running : Running K V T S E) : Decidable running.Returned :=
  inferInstanceAs (Decidable (_ ∧ _))

def emit [LT T] [DecidableLT T] (running : Running K V T S E)
    (graph : Graph K V T S E) (source : Option Nat)
    (messages : List (Message K V T)) : Running K V T S E :=
  { running with
    toWorker := running.toWorker.hand graph source messages
    outputs := Function.update running.outputs source
      (messages.foldl Output.send (running.outputs source)) }

/-- What the worker has been told, which the root has still to send. -/
def command (running : Running K V T S E) (procedure : Procedure) :
    Running K V T S E :=
  { running with
    procedure := some procedure
    persisted := []
    logs := fun operator => Log.start (running.operators operator) }

def begin [LT T] [DecidableLT T] (running : Running K V T S E)
    (graph : Graph K V T S E) (procedure : Procedure) : Running K V T S E :=
  (running.command procedure).emit graph none [procedure.message]

def receive (running : Running K V T S E) (operator : Nat) (remote : WorkerId)
    (message : NetworkMessage K V T) : Running K V T S E :=
  let current := running.operators operator
  { running with
    operators := Function.update running.operators operator
      { current with
        mail := Function.update current.mail remote
          (current.mail remote ++ [message]) } }

variable [DecidableEq K] [MaybeTime T] [LT T] [DecidableLT T]

/-- An operator has been called and its output is not sent yet. -/
def install (running : Running K V T S E) (graph : Graph K V T S E)
    (workerId : WorkerId) (operator : Nat) (call : Call E)
    (stepped : Stepped K V T S E) : Running K V T S E :=
  let current := running.operators operator
  let history := running.histories operator
  { running with
    toWorker := running.toWorker.install graph operator call stepped
    pass := { running.pass with entered := true }
    histories := Function.update running.histories operator
      { received := fun channel => history.received channel ++
          current.input.left stepped.operator.input channel
        taken := history.taken ++ stepped.taken.toList
        heard := history.heard ++ current.reads
        posted := history.posted ++ current.posts workerId call } }

end Running

/-! ### All workers -/

structure Execution (K V T S E : Type) where
  workers : WorkerId → Running K V T S E
  /-- What is on its way from worker to worker, for each operator. -/
  links : Nat → Links WorkerId (NetworkMessage K V T)

inductive Execution.Event (E : Type) where
  /-- A worker does the next thing of its `step`. -/
  | advance (worker : WorkerId) (call : Call E)
  /-- A procedure of the coordinator begins. -/
  | command (worker : WorkerId) (procedure : Procedure)
  | deliver (operator : Nat) (source target : WorkerId)

namespace Execution

def start (workers : WorkerId → Worker K V T S E) : Execution K V T S E where
  workers worker := { toWorker := workers worker }
  links _ _ _ := []

def set (execution : Execution K V T S E) (worker : WorkerId)
    (running : Running K V T S E) : Execution K V T S E :=
  { execution with
    workers := Function.update execution.workers worker running }

variable [DecidableEq K] [DecidableEq T] [MaybeTime T] [LT T] [DecidableLT T]

def step (dataflow : Dataflow K V T S E) (execution : Execution K V T S E) :
    Event E → Except RunPanic (Execution K V T S E)
  | .advance worker call =>
      let running := execution.workers worker
      match running.due with
      | none => .ok (execution.set worker (running.proceed dataflow))
      | some operator =>
          let current := running.operators operator
          match current.step worker call with
          | .error panic => .error panic
          | .ok stepped =>
              .ok { workers := Function.update execution.workers worker
                      ((running.install dataflow.toGraph worker operator call
                        stepped).emit dataflow.toGraph (some operator)
                          stepped.output)
                    links := Function.update execution.links operator
                      ((execution.links operator).sendAll worker
                        (current.posts worker call)) }
  | .command worker procedure =>
      .ok (execution.set worker
        ((execution.workers worker).begin dataflow.toGraph procedure))
  | .deliver operator source target =>
      match execution.links operator source target with
      | [] => .ok execution
      | message :: rest =>
          .ok { workers := Function.update execution.workers target
                  ((execution.workers target).receive operator source message)
                links := Function.update execution.links operator
                  ((execution.links operator).set source target rest) }

/-- The worker set is fixed: no procedure changes it. A procedure begins after
a pass. -/
def allowed (dataflow : Dataflow K V T S E) (workers : IndexSet WorkerId)
    (execution : Execution K V T S E) : Event E → Prop
  | .advance worker _ => worker ∈ workers
  | .command worker procedure =>
      worker ∈ workers ∧ (procedure = .snapshot ∨ procedure = .suspend) ∧
        (execution.workers worker).pass.remaining = 0 ∧
        (execution.workers worker).toWorker.allowed dataflow.toGraph worker
          (.command procedure)
  | .deliver _ source target => source ∈ workers ∧ target ∈ workers

instance (dataflow : Dataflow K V T S E) (workers : IndexSet WorkerId)
    (execution : Execution K V T S E) :
    (event : Event E) → Decidable (execution.allowed dataflow workers event)
  | .advance worker _ => inferInstanceAs (Decidable (worker ∈ workers))
  | .command _ _ => inferInstanceAs (Decidable (_ ∧ _ ∧ _ ∧ _))
  | .deliver _ _ _ => inferInstanceAs (Decidable (_ ∧ _))

end Execution

end Malstrom.Stream
