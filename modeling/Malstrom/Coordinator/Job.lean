import Malstrom.Coordinator.Procedure
import Malstrom.Data.Transition

namespace Malstrom.Coordinator

open Data

/-! The coordinator of a job with the threads of its workers and the inbound
task of each. -/

inductive Thread where
  | absent
  | awaitsBuild
  | built
  | running
  | performing (procedure : Procedure)
  /-- Execution has completed, or the thread has panicked. -/
  | ended
  deriving DecidableEq

structure Report where
  incarnation : Nat
  message : WorkerMessage
  deriving DecidableEq

structure Peer where
  thread : Thread := .absent
  /-- Incarnations which were removed and have still to say so. -/
  leaving : List Nat := []
  commands : List CoordinationMessage := []
  reports : List Report := []
  /-- The inbound tasks which are alive, with what they have received and not
  applied yet. -/
  tasks : List (Option Report) := []
  /-- How often a thread of this id has been told to build. -/
  builds : Nat := 0
  /-- How often communication was set up for this id. -/
  setups : Nat := 0
  /-- All messages which were ever sent. -/
  reported : List Report := []
  deriving DecidableEq

def Procedure.removes (procedure : Procedure) (worker : WorkerId) : Bool :=
  match procedure with
  | .snapshot _ => false
  | .reconfig config _ => decide (worker ∉ config)

namespace Peer

def report (peer : Peer) (message : WorkerMessage) : Peer :=
  { peer with
    reports := peer.reports ++ [⟨peer.builds, message⟩]
    reported := peer.reported ++ [⟨peer.builds, message⟩] }

/-- The next thing the thread does, which is to take a command or to be through
with a procedure. -/
def work (peer : Peer) (worker : WorkerId) : Peer :=
  match peer.thread, peer.commands with
  | .performing procedure, _ =>
      let done := peer.report procedure.complete
      if procedure.removes worker then
        { done with thread := .absent, leaving := peer.leaving ++ [peer.builds] }
      else { done with thread := .running }
  | .awaitsBuild, .startBuild _ :: rest =>
      { peer with
        commands := rest, thread := .built
        builds := peer.builds + 1 }.report .buildComplete
  | .built, .startExecution :: rest =>
      { peer with commands := rest, thread := .running }.report
        .executionStarted
  | .running, .snapshot version :: rest =>
      { peer with
        commands := rest
        thread := .performing (.snapshot version) }.report .snapshotStarted
  | .running, .reconfigure config version :: rest =>
      { peer with
        commands := rest
        thread := .performing (.reconfig config version) }.report
          .reconfigurationStarted
  | .running, .suspend :: rest =>
      { peer with commands := rest, thread := .ended }.report .suspendComplete
  | .absent, _ | .ended, _ | _, [] => peer
  -- the command is unreachable!() for the thread
  | _, _ :: rest => { peer with commands := rest, thread := .ended }

def canWork (peer : Peer) : Bool :=
  match peer.thread with
  | .performing _ => true
  | .awaitsBuild | .built | .running => !peer.commands.isEmpty
  | .absent | .ended => false

def receive (peer : Peer) (task : Nat) : Peer :=
  match peer.reports with
  | [] => peer
  | report :: rest =>
      { peer with reports := rest, tasks := peer.tasks.set task (some report) }

/-- A task has applied its message and goes on, unless that was the last
one. -/
def applied (peer : Peer) (task : Nat) (message : WorkerMessage) : Peer :=
  { peer with
    tasks := if message = .removed then peer.tasks.eraseIdx task
      else peer.tasks.set task none }

end Peer

/-! ### The coordinator -/

structure SerializableCoordinatorState where
  workerStates : IndexMap WorkerId WorkerState := .empty
  activeWorkers : IndexSet WorkerId := .empty
  configVersion : Option Version := none

inductive Start where
  | boot (resume : Option SnapshotVersion)
  | rescale (config : IndexSet WorkerId)

inductive Stage where
  | send
  | register
  | await (receiver : Nat)
  | ready
  deriving DecidableEq

inductive Doing where
  | setup (start : Start) (new rest : List WorkerId)
  /-- The new workers' states are inserted a second time. -/
  | reset (config : IndexSet WorkerId) (new rest : List WorkerId)
  | build (start : Start) (new : List WorkerId) (stages : WorkerId → Stage)
  | execution (start : Start) (new : List WorkerId) (stages : WorkerId → Stage)
  | watch
  | idle
  | perform (procedure : Procedure) (performing : Performing)
  | serialize (version : SnapshotVersion)
  | commit (version : SnapshotVersion) (state : SerializableCoordinatorState)
  /-- These workers are still to be forgotten. -/
  | tidy (version : Version) (rest : List WorkerId)
  | finish
  | finished

inductive RequestOperation where
  | snapshot
  | scale (desired : Nat)

structure Job where
  states : States
  /-- Workers the coordinator has a sender for. -/
  activeWorkers : IndexMap WorkerId Unit
  configVersion : Option Version
  snapshotVersion : Option SnapshotVersion
  /-- Completed when all workers have completed. -/
  completion : Option Nat
  committed : List (SnapshotVersion × SerializableCoordinatorState)
  doing : Doing
  peers : WorkerId → Peer

namespace Job

inductive Event where
  | coordinate
  /-- One of several workers which are started together. -/
  | poll (worker : WorkerId)
  | request (operation : RequestOperation)
  | spawn (worker : WorkerId)
  | work (worker : WorkerId)
  | complete (worker : WorkerId)
  | leave (worker : WorkerId)
  | receive (worker : WorkerId) (task : Nat)
  | apply (worker : WorkerId) (task : Nat)

def setPeer (job : Job) (worker : WorkerId) (peer : Peer) : Job :=
  { job with peers := Function.update job.peers worker peer }

def send (job : Job) (worker : WorkerId) (message : CoordinationMessage) :
    Job :=
  let peer := job.peers worker
  job.setPeer worker { peer with commands := peer.commands ++ [message] }

def setupComm (job : Job) (worker : WorkerId) : Job :=
  let peer := job.peers worker
  { job with states := job.states.insert worker {} }.setPeer worker
    { peer with tasks := peer.tasks ++ [none], setups := peer.setups + 1 }

def addActive (job : Job) (new : List WorkerId) : Job :=
  { job with
    activeWorkers := new.foldl (fun active worker => active.insert worker ())
      job.activeWorkers }

def nextVersion : Option Nat → Nat
  | some version => version + 1
  | none => 0

def startBuild (job : Job) (start : Start) (worker : WorkerId) : Job :=
  job.send worker (.startBuild
    { workerSet := job.activeWorkers.keys
      resumeSnapshot := match start with
        | .boot resume => resume
        | .rescale _ => none })

/-- A worker is to report this phase; the next stage of its start and the job
after it. -/
def pollStage (job : Job) (sent : Job) (worker : WorkerId)
    (phase : WorkerPhase) : Stage → Job × Stage
  | .send => (sent, .register)
  | .register =>
      let notified := job.states.notify (onePhase worker phase)
      ({ job with states := notified.1 }, .await notified.2)
  | .await receiver =>
      if receiver ∈ job.states.completed then (job, .ready)
      else (job, .await receiver)
  | .ready => (job, .ready)

def poll (job : Job) (worker : WorkerId) : Job :=
  match job.doing with
  | .build start new stages =>
      let polled := job.pollStage (job.startBuild start worker) worker
        .buildComplete (stages worker)
      { polled.1 with
        doing := .build start new (Function.update stages worker polled.2) }
  | .execution start new stages =>
      let polled := job.pollStage (job.send worker .startExecution) worker
        .running (stages worker)
      { polled.1 with
        doing := .execution start new
          (Function.update stages worker polled.2) }
  | _ => job

def perform (job : Job) (procedure : Procedure) : Job :=
  { job with doing := .perform procedure (.sending job.activeWorkers.keys) }

/-- The next step of the coordinator, unless it has to wait. -/
def coordinate? (job : Job) : Option Job :=
  match job.doing with
  | .setup start new (worker :: rest) =>
      some { job.setupComm worker with doing := .setup start new rest }
  | .setup (.boot resume) new [] =>
      some { job.addActive new with
        doing := .build (.boot resume) new fun _ => .send }
  | .setup (.rescale config) new [] =>
      some { job with doing := .reset config new new }
  | .reset config new (worker :: rest) =>
      some { job with
        states := job.states.insert worker {}
        doing := .reset config new rest }
  | .reset config new [] =>
      some { job.addActive new with
        doing := .build (.rescale config) new fun _ => .send }
  | .build start new stages =>
      if ∀ worker ∈ new, stages worker = .ready then
        some { job with doing := .execution start new fun _ => .send }
      else none
  | .execution start new stages =>
      if ∀ worker ∈ new, stages worker = .ready then
        match start with
        | .boot _ => some { job with doing := .watch }
        | .rescale config => some (job.perform
            (.reconfig config (nextVersion job.configVersion)))
      else none
  | .watch =>
      let notified := job.states.notify (allPhase .completed)
      some { job with
        states := notified.1, completion := some notified.2, doing := .idle }
  | .idle =>
      if ∃ receiver ∈ job.completion, receiver ∈ job.states.completed then
        some { job with doing := .finished }
      else none
  | .perform (.snapshot version) .returned =>
      some { job with doing := .serialize version }
  | .perform (.reconfig config version) .returned =>
      let toRemove := job.activeWorkers.keys.filter fun worker =>
        decide (worker ∉ config)
      some { job with doing := .tidy version toRemove }
  | .perform procedure performing =>
      (performing.step? procedure job.states).map fun next =>
        let told := match performing with
          | .sending (worker :: _) => job.send worker procedure.command
          | _ => job
        { told with states := next.1, doing := .perform procedure next.2 }
  | .serialize version =>
      let state : SerializableCoordinatorState :=
        { workerStates := job.states.store
          activeWorkers := job.activeWorkers.keySet
          configVersion := job.configVersion }
      some { job with doing := .commit version state }
  | .commit version state =>
      some { job with
        committed := job.committed ++ [(version, state)]
        snapshotVersion := some version
        doing := .finish }
  | .tidy version (worker :: rest) =>
      some { job with
        states := job.states.remove worker
        activeWorkers := job.activeWorkers.swapRemove worker
        doing := .tidy version rest }
  | .tidy version [] =>
      some { job with configVersion := some version, doing := .finish }
  | .finish =>
      some { job with
        doing := if job.activeWorkers.keys.isEmpty then .finished else .idle }
  | .finished => none

def handle (job : Job) : RequestOperation → Job
  | .snapshot => job.perform (.snapshot (nextVersion job.snapshotVersion))
  | .scale desired =>
      let config := IndexSet.ofList (List.range desired)
      if desired = job.activeWorkers.keys.length then
        { job with doing := .finish }
      else
        let new := config.items.filter fun worker =>
          decide (worker ∉ job.activeWorkers)
        { job with doing := .setup (.rescale config) new new }

def next (job : Job) : Event → Job
  | .coordinate => job.coordinate?.getD job
  | .poll worker => job.poll worker
  | .request operation => job.handle operation
  | .spawn worker =>
      job.setPeer worker { job.peers worker with thread := .awaitsBuild }
  | .work worker => job.setPeer worker ((job.peers worker).work worker)
  | .complete worker =>
      job.setPeer worker
        ({ job.peers worker with thread := .ended }.report .executionComplete)
  | .leave worker =>
      let peer := job.peers worker
      match peer.leaving with
      | [] => job
      | incarnation :: rest =>
          job.setPeer worker { peer with
            leaving := rest
            reports := peer.reports ++ [⟨incarnation, .removed⟩]
            reported := peer.reported ++ [⟨incarnation, .removed⟩] }
  | .receive worker task =>
      job.setPeer worker ((job.peers worker).receive task)
  | .apply worker task =>
      match (job.peers worker).tasks[task]? with
      | some (some report) =>
          { job with
            states := workerCommInbound job.states worker report.message
          }.setPeer worker ((job.peers worker).applied task report.message)
      | _ => job

def step (job : Job) (event : Event) : Except Empty Job :=
  .ok (job.next event)

/-- Requests are handled one after the other.  A thread of an id is only spawned
when there is none which has not been removed. -/
def allowed (job : Job) : Event → Prop
  | .coordinate => job.coordinate?.isSome
  | .poll worker =>
      match job.doing with
      | .build _ new _ | .execution _ new _ => worker ∈ new
      | _ => False
  | .request _ => match job.doing with | .idle => True | _ => False
  | .spawn worker => (job.peers worker).thread = .absent ∨
      (job.peers worker).thread = .ended
  | .work worker => (job.peers worker).canWork
  | .complete worker => (job.peers worker).thread = .running
  | .leave worker => (job.peers worker).leaving ≠ []
  | .receive worker task => (job.peers worker).reports ≠ [] ∧
      (job.peers worker).tasks[task]? = some none
  | .apply worker task => ∃ report,
      (job.peers worker).tasks[task]? = some (some report)

instance (job : Job) (event : Event) : Decidable (job.allowed event) :=
  match event with
  | .coordinate => inferInstanceAs (Decidable (job.coordinate?.isSome = true))
  | .poll worker =>
      match isDoing : job.doing with
      | .build _ new _ | .execution _ new _ =>
          decidable_of_iff (worker ∈ new) (by simp [allowed, isDoing])
      | .setup .. | .reset .. | .watch | .idle | .perform .. | .serialize _
      | .commit .. | .tidy .. | .finish | .finished =>
          .isFalse (by simp [allowed, isDoing])
  | .request _ =>
      match isDoing : job.doing with
      | .idle => .isTrue (by simp [allowed, isDoing])
      | .setup .. | .reset .. | .build .. | .execution .. | .watch
      | .perform .. | .serialize _ | .commit .. | .tidy .. | .finish
      | .finished => .isFalse (by simp [allowed, isDoing])
  | .spawn worker => inferInstanceAs (Decidable
      ((job.peers worker).thread = .absent ∨
        (job.peers worker).thread = .ended))
  | .work worker =>
      inferInstanceAs (Decidable ((job.peers worker).canWork = true))
  | .complete worker =>
      inferInstanceAs (Decidable ((job.peers worker).thread = .running))
  | .leave worker =>
      inferInstanceAs (Decidable ((job.peers worker).leaving ≠ []))
  | .receive worker task => inferInstanceAs (Decidable
      ((job.peers worker).reports ≠ [] ∧
        (job.peers worker).tasks[task]? = some none))
  | .apply worker task =>
      decidable_of_iff ((job.peers worker).tasks[task]?.join.isSome = true) (by
        simp only [allowed, Option.isSome_iff_exists,
          Option.join_eq_some_iff])

/-- Communication is set up for a worker when the inbound task of its last
incarnation has ended. -/
def separate (job : Job) : Event → Prop
  | .coordinate =>
      match job.doing with
      | .setup _ _ (worker :: _) => (job.peers worker).tasks = []
      | _ => True
  | _ => True

def boot (state : SerializableCoordinatorState)
    (resume : Option SnapshotVersion) : Job where
  states := .ofStore state.workerStates
  activeWorkers := .empty
  configVersion := state.configVersion
  snapshotVersion := resume
  completion := none
  committed := []
  doing := .setup (.boot resume) state.activeWorkers.items
    state.activeWorkers.items
  peers _ := {}

end Job

end Malstrom.Coordinator
