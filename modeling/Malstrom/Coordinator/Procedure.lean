import Malstrom.Coordinator.WatchMap
import Malstrom.Keyed.Types

namespace Malstrom.Coordinator

open Data

/-! What the coordinator and its workers tell each other. -/

abbrev SnapshotVersion := Nat

structure BuildInformation where
  workerSet : List WorkerId
  resumeSnapshot : Option SnapshotVersion
  deriving DecidableEq

inductive WorkerMessage where
  | buildComplete
  | executionStarted
  | snapshotStarted
  | snapshotComplete (version : SnapshotVersion)
  | reconfigurationStarted
  | reconfigureComplete (version : Version)
  | executionComplete
  | suspendComplete
  | removed
  deriving DecidableEq

inductive CoordinationMessage where
  | startBuild (info : BuildInformation)
  | startExecution
  | snapshot (version : SnapshotVersion)
  | reconfigure (workers : IndexSet WorkerId) (version : Version)
  | suspend
  deriving DecidableEq

inductive WorkerPhase where
  | unknown
  | buildComplete
  | running
  | snapshotting
  | reconfiguring
  | suspended
  | completed
  deriving DecidableEq

structure WorkerState where
  phase : WorkerPhase := .unknown
  snapshotVersion : Option SnapshotVersion := none
  deriving DecidableEq

instance : Inhabited WorkerState := ⟨{}⟩

abbrev States := WatchMap WorkerId WorkerState

def allPhase (phase : WorkerPhase) (items : List (WorkerId × WorkerState)) :
    Bool :=
  items.all fun item => item.2.phase = phase

def onePhase (worker : WorkerId) (phase : WorkerPhase)
    (items : List (WorkerId × WorkerState)) : Bool :=
  items.any fun item => item.1 = worker && item.2.phase = phase

/-- What a report does to the state of its worker; the last one removes it. -/
def WorkerMessage.apply? : WorkerMessage → Option (WorkerState → WorkerState)
  | .buildComplete => some fun state => { state with phase := .buildComplete }
  | .executionStarted => some fun state => { state with phase := .running }
  | .snapshotStarted => some fun state => { state with phase := .snapshotting }
  | .snapshotComplete version => some fun state =>
      { state with phase := .running, snapshotVersion := some version }
  | .reconfigurationStarted => some fun state =>
      { state with phase := .reconfiguring }
  | .reconfigureComplete _ => some fun state => { state with phase := .running }
  | .executionComplete => some fun state => { state with phase := .completed }
  | .suspendComplete => some fun state => { state with phase := .suspended }
  | .removed => none

def workerCommInbound (states : States) (worker : WorkerId)
    (message : WorkerMessage) : States :=
  match message.apply? with
  | some apply => states.applyOrDefault worker apply
  | none => states.remove worker

/-! A snapshot or a reconfiguration of all workers. -/

inductive Procedure where
  | snapshot (version : SnapshotVersion)
  | reconfig (config : IndexSet WorkerId) (version : Version)
  deriving DecidableEq

namespace Procedure

def command : Procedure → CoordinationMessage
  | .snapshot version => .snapshot version
  | .reconfig config version => .reconfigure config version

def phase : Procedure → WorkerPhase
  | .snapshot _ => .snapshotting
  | .reconfig _ _ => .reconfiguring

def started : Procedure → WorkerMessage
  | .snapshot _ => .snapshotStarted
  | .reconfig _ _ => .reconfigurationStarted

def complete : Procedure → WorkerMessage
  | .snapshot version => .snapshotComplete version
  | .reconfig _ version => .reconfigureComplete version

theorem phase_ne_running (procedure : Procedure) :
    procedure.phase ≠ .running := by
  cases procedure <;> simp [phase]

end Procedure

/-- How far `perform_snapshot_all`, or the same part of `perform_reconfig_all`,
has come. -/
inductive Performing where
  /-- These workers are still to be told. -/
  | sending (rest : List WorkerId)
  | awaitStarted (receiver : Nat)
  | registerRunning
  | awaitRunning (receiver : Nat)
  | returned
  deriving DecidableEq

namespace Performing

/-- The next thing the coordinator does, unless it has to wait. -/
def step? (procedure : Procedure) (states : States) :
    Performing → Option (States × Performing)
  | .sending (_ :: rest) => some (states, .sending rest)
  | .sending [] =>
      let notified := states.notify (allPhase procedure.phase)
      some (notified.1, .awaitStarted notified.2)
  | .awaitStarted receiver =>
      if receiver ∈ states.completed then some (states, .registerRunning)
      else none
  | .registerRunning =>
      let notified := states.notify (allPhase .running)
      some (notified.1, .awaitRunning notified.2)
  | .awaitRunning receiver =>
      if receiver ∈ states.completed then some (states, .returned) else none
  | .returned => none

inductive Steps (procedure : Procedure) (states : States) :
    Performing → States → Performing → Prop
  | tell {worker : WorkerId} {rest : List WorkerId} :
      Steps procedure states (.sending (worker :: rest)) states (.sending rest)
  | awaitStarted :
      Steps procedure states (.sending [])
        (states.notify (allPhase procedure.phase)).1
        (.awaitStarted (states.notify (allPhase procedure.phase)).2)
  | started {receiver : Nat} (done : receiver ∈ states.completed) :
      Steps procedure states (.awaitStarted receiver) states .registerRunning
  | awaitRunning :
      Steps procedure states .registerRunning
        (states.notify (allPhase .running)).1
        (.awaitRunning (states.notify (allPhase .running)).2)
  | running {receiver : Nat} (done : receiver ∈ states.completed) :
      Steps procedure states (.awaitRunning receiver) states .returned

theorem steps_of_step? {procedure : Procedure} {states states' : States}
    {performing performing' : Performing}
    (stepped : performing.step? procedure states =
      some (states', performing')) :
    Steps procedure states performing states' performing' := by
  simp only [step?] at stepped
  split at stepped
  next =>
    obtain ⟨rfl, rfl⟩ := by simpa using stepped
    exact .tell
  next =>
    obtain ⟨rfl, rfl⟩ := by simpa using stepped
    exact .awaitStarted
  next =>
    split at stepped
    next done =>
      obtain ⟨rfl, rfl⟩ := by simpa using stepped
      exact .started done
    next => cases stepped
  next =>
    obtain ⟨rfl, rfl⟩ := by simpa using stepped
    exact .awaitRunning
  next =>
    split at stepped
    next done =>
      obtain ⟨rfl, rfl⟩ := by simpa using stepped
      exact .running done
    next => cases stepped
  next => cases stepped

theorem Steps.store {procedure : Procedure} {states states' : States}
    {performing performing' : Performing}
    (steps : Steps procedure states performing states' performing') :
    states'.store = states.store := by
  cases steps <;> rfl

def untold : Performing → List WorkerId
  | .sending rest => rest
  | .awaitStarted _ | .registerRunning | .awaitRunning _ | .returned => []

end Performing

end Malstrom.Coordinator
