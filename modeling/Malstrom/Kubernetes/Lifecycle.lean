import Malstrom.Data.Transition
import Mathlib.Logic.Function.Basic

namespace Malstrom.Kubernetes.Lifecycle

open Data

/-! The jobs of a namespace from their creation to their removal.  The operator
works on several of them at a time and may lose any answer, or be restarted, at
every call. -/

inductive JobState where
  | running
  | suspended
  deriving DecidableEq

structure MalstromJobStatus where
  state : JobState
  replicas : Int32
  deriving DecidableEq

structure MalstromJob where
  replicas : Int32
  deletionTimestamp : Bool := false
  finalizers : List String := []
  deriving DecidableEq

inductive Resource where
  | coordinatorSvc
  | workerSvc
  | coordinatorSts
  | workerSts
  deriving DecidableEq

structure Cluster where
  jobs : String → Option MalstromJob
  services : String → Bool
  /-- `spec.replicas`. -/
  statefulSets : String → Option Int32

inductive Request where
  | compareWithCluster
  | apply (resource : Resource)
  | getWorkerSts
  | connect
  | scaleWorkerSts
  | rescale
  | patchStatus (status : MalstromJobStatus)
  | addFinalizer
  | delete (resource : Resource)
  | deleteFinalizer
  deriving DecidableEq

inductive Refusal where
  | notFound
  | other
  deriving DecidableEq

/-- How a call ends.  Without an answer it may have been carried out or not. -/
inductive Reply where
  | served
  | refused
  | unreachable
  | lost
  deriving DecidableEq

/-- What the operator gets to know of a call: the errors of the API are told
from all others. -/
inductive Answer where
  | ok
  | api (refusal : Refusal)
  | silent
  deriving DecidableEq

structure Pass where
  job : MalstromJob
  todo : List Request
  deriving DecidableEq

/-- The resource which the next call deletes. -/
def Pass.deletes? (pass : Pass) : Option Resource :=
  match pass.todo with
  | .delete resource :: _ => some resource
  | _ => none

structure Control where
  cluster : Cluster
  /-- A job is not reconciled twice at the same time. -/
  passes : String → Option Pass

inductive Event where
  | create (name : String) (replicas : Int32) (finalizers : List String)
  /-- Somebody else changes the job. -/
  | edit (name : String) (replicas : Int32) (finalizers : List String)
  | delete (name : String)
  /-- The controller has a job reconciled, in the state it last saw. -/
  | reconcile (name : String) (job : MalstromJob)
  | call (name : String) (reply : Reply)
  /-- The operator is restarted. -/
  | restart
  deriving DecidableEq

/-! ### Resources -/

def Resource.nameAny (name : String) : Resource → String
  | .coordinatorSvc | .coordinatorSts => name ++ "-coordinator"
  | .workerSvc | .workerSts => name ++ "-worker"

/-- Services come before StatefulSets wherever all resources are gone through. -/
def allResourceSpecs : List Resource :=
  [.coordinatorSvc, .workerSvc, .coordinatorSts, .workerSts]

def Resource.isService : Resource → Bool
  | .coordinatorSvc | .workerSvc => true
  | .coordinatorSts | .workerSts => false

namespace Cluster

def has (cluster : Cluster) (name : String) (resource : Resource) : Bool :=
  if resource.isService then cluster.services (resource.nameAny name)
  else (cluster.statefulSets (resource.nameAny name)).isSome

def setService (cluster : Cluster) (service : String) (present : Bool) :
    Cluster :=
  { cluster with services := Function.update cluster.services service present }

def setStatefulSet (cluster : Cluster) (statefulSet : String)
    (replicas : Option Int32) : Cluster :=
  { cluster with
    statefulSets :=
      Function.update cluster.statefulSets statefulSet replicas }

def setJob (cluster : Cluster) (name : String) (job : Option MalstromJob) :
    Cluster :=
  { cluster with jobs := Function.update cluster.jobs name job }

/-- Server-side apply, or a merge patch, of a StatefulSet made for the job: it is
made where it is missing and gets this `spec.replicas`.  The validation of the
API refuses a negative number. -/
def applySts (cluster : Cluster) (statefulSet : String) (replicas : Int32) :
    Except Refusal Cluster :=
  if replicas < 0 then .error .other
  else .ok (cluster.setStatefulSet statefulSet (some replicas))

def remove (cluster : Cluster) (name : String) (resource : Resource) :
    Cluster :=
  if resource.isService then
    cluster.setService (resource.nameAny name) false
  else cluster.setStatefulSet (resource.nameAny name) none

end Cluster

/-! ### Kubernetes -/

def finalizer : String := "malstrom.io/finalizer"

/-- A merge patch of `metadata.finalizers`, whose list replaces the old one.  As
Kubernetes documents finalizers, an object with a deletion timestamp gets no new
ones, and is removed as soon as it has none left. -/
def setFinalizers (cluster : Cluster) (name : String)
    (finalizers : List String) : Except Refusal Cluster :=
  match cluster.jobs name with
  | none => .error .notFound
  | some job =>
      if job.deletionTimestamp then
        if finalizers.all fun added => job.finalizers.contains added then
          if finalizers.isEmpty then .ok (cluster.setJob name none)
          else .ok (cluster.setJob name (some { job with finalizers := finalizers }))
        else .error .other
      else .ok (cluster.setJob name (some { job with finalizers := finalizers }))

/-- A request for a job, carried out as the Kubernetes API documents its verb: a
get, a merge patch or a deletion of a missing object is answered 404, a
server-side apply makes it, and a deletion is over when it is answered.  The
calls to the coordinator change no object. -/
def Request.serve (cluster : Cluster) (name : String) (job : MalstromJob) :
    Request → Except Refusal Cluster
  | .compareWithCluster | .getWorkerSts =>
      if cluster.has name .workerSts then .ok cluster else .error .notFound
  | .apply resource =>
      match resource with
      | .coordinatorSvc | .workerSvc =>
          .ok (cluster.setService (resource.nameAny name) true)
      | .coordinatorSts => cluster.applySts (resource.nameAny name) 1
      | .workerSts => cluster.applySts (resource.nameAny name) job.replicas
  | .connect | .rescale => .ok cluster
  | .scaleWorkerSts =>
      if cluster.has name .workerSts then
        cluster.applySts (Resource.workerSts.nameAny name) job.replicas
      else .error .notFound
  -- What becomes of the status is left out: nobody reads it.
  | .patchStatus _ =>
      if (cluster.jobs name).isSome then .ok cluster else .error .notFound
  | .addFinalizer => setFinalizers cluster name [finalizer]
  | .delete resource =>
      if cluster.has name resource then .ok (cluster.remove name resource)
      else .error .notFound
  | .deleteFinalizer => setFinalizers cluster name []

/-- The cluster after a call, and what the operator hears of it. -/
def Reply.answer (reply : Reply) (cluster : Cluster)
    (result : Except Refusal Cluster) : Cluster × Answer :=
  match reply, result with
  | .served, .ok next => (next, .ok)
  | .served, .error refusal => (cluster, .api refusal)
  | .refused, _ => (cluster, .api .other)
  | .unreachable, _ => (cluster, .silent)
  | .lost, .ok next => (next, .silent)
  | .lost, .error _ => (cluster, .silent)

/-! ### The operator -/

inductive DecisionAction where
  | put
  | delete
  | patch
  | noOp
  deriving DecidableEq

def MalstromJob.reported (job : MalstromJob) : MalstromJobStatus where
  state := if 0 < job.replicas then .running else .suspended
  replicas := job.replicas

def create (job : MalstromJob) : List Request :=
  allResourceSpecs.map .apply ++ [.patchStatus job.reported]

def delete : List Request :=
  allResourceSpecs.map .delete

def patch (job : MalstromJob) : List Request :=
  [.apply .coordinatorSvc, .apply .workerSvc, .getWorkerSts,
    .apply .coordinatorSts, .apply .workerSts, .patchStatus job.reported]

def performRescale (desiredScale currentScale : Int32) : List Request :=
  .connect ::
    if desiredScale - currentScale = 0 then []
    else if 0 < desiredScale - currentScale then [.scaleWorkerSts, .rescale]
    else [.rescale, .scaleWorkerSts]

def DecisionAction.requests (job : MalstromJob) : DecisionAction → List Request
  | .put => Lifecycle.create job ++ [.addFinalizer]
  | .delete => Lifecycle.delete ++ [.deleteFinalizer]
  | .patch => Lifecycle.patch job
  | .noOp => []

/-- Where the cluster is to be looked at, the decision is made after that. -/
def makeDecision (job : MalstromJob) : List Request :=
  if job.deletionTimestamp then DecisionAction.delete.requests job
  else if job.finalizers.isEmpty then DecisionAction.put.requests job
  else [.compareWithCluster]

/-- Replicas of the worker StatefulSet, 0 if there is none. -/
def Cluster.scale (cluster : Cluster) (name : String) : Int32 :=
  (cluster.statefulSets (Resource.workerSts.nameAny name)).getD 0

/-- What is left to do after a request; `none` where its error ends the pass.
A deletion only minds the errors of the API. -/
def Request.proceed (cluster : Cluster) (name : String) (job : MalstromJob)
    (answer : Answer) (rest : List Request) : Request → Option (List Request)
  | .delete _ => if answer = .api .other then none else some rest
  | .compareWithCluster =>
      if answer = .ok then
        if cluster.scale name ≠ job.replicas then
          some (DecisionAction.patch.requests job)
        else some (DecisionAction.noOp.requests job)
      else some (DecisionAction.noOp.requests job)
  | .getWorkerSts =>
      if answer = .ok then
        if cluster.scale name ≠ job.replicas then
          some (performRescale job.replicas (cluster.scale name) ++ rest)
        else some rest
      else none
  | _ => if answer = .ok then some rest else none

/-- A pass with nothing left to do is over. -/
def Pass.continue (job : MalstromJob) : Option (List Request) → Option Pass
  | none | some [] => none
  | some (request :: rest) => some ⟨job, request :: rest⟩

namespace Control

def setPass (control : Control) (name : String) (pass : Option Pass) :
    Control :=
  { control with passes := Function.update control.passes name pass }

def call (control : Control) (name : String) (reply : Reply) (pass : Pass) :
    Control :=
  match pass.todo with
  | [] => control.setPass name none
  | request :: rest =>
      let (cluster, answer) := reply.answer control.cluster
        (request.serve control.cluster name pass.job)
      { control with cluster := cluster }.setPass name
        (Pass.continue pass.job
          (request.proceed cluster name pass.job answer rest))

def step (control : Control) : Event → Control
  | .create name replicas finalizers =>
      match control.cluster.jobs name with
      | none =>
          { control with
            cluster := control.cluster.setJob name
              (some { replicas := replicas, finalizers := finalizers }) }
      | some _ => control
  | .edit name replicas finalizers =>
      match control.cluster.jobs name with
      | none => control
      | some job =>
          match setFinalizers (control.cluster.setJob name
              (some { job with replicas := replicas })) name finalizers with
          | .error _ => control
          | .ok cluster => { control with cluster := cluster }
  | .delete name =>
      match control.cluster.jobs name with
      | none => control
      | some job =>
          { control with
            cluster := control.cluster.setJob name
              (if job.finalizers.isEmpty then none
              else some { job with deletionTimestamp := true }) }
  | .reconcile name job =>
      match control.passes name with
      | none => control.setPass name (Pass.continue job (some (makeDecision job)))
      | some _ => control
  | .call name reply =>
      match control.passes name with
      | none => control
      | some pass => control.call name reply pass
  | .restart => { control with passes := fun _ => none }

def act (control : Control) (event : Event) : Except Empty Control :=
  .ok (control.step event)

def Clear (control : Control) (name : String) : Prop :=
  control.passes name = none ∧
    ∀ resource, control.cluster.has name resource = false

instance (control : Control) (name : String) :
    Decidable (control.Clear name) :=
  decidable_of_iff (control.passes name = none ∧
      ∀ resource ∈ allResourceSpecs, control.cluster.has name resource = false)
    (and_congr_right fun _ =>
      ⟨fun none resource => none resource (by cases resource <;> decide),
        fun none resource _ => none resource⟩)

/-- The finalizers of a job to be deleted keep it for the operator. -/
def Held (control : Control) (name : String) (finalizers : List String) :
    Prop :=
  finalizers = [] → control.Clear name

instance (control : Control) (name : String) (finalizers : List String) :
    Decidable (control.Held name finalizers) :=
  inferInstanceAs (Decidable (_ → _))

/-- Nobody but the operator touches its finalizer, nor lets a job go away which
it has begun to work on; a pass has an earlier state of the job that is there;
and a deletion gets an answer. -/
def allowed (control : Control) : Event → Prop
  | .create _ _ finalizers => finalizer ∉ finalizers
  | .edit name _ finalizers =>
      ∀ job ∈ control.cluster.jobs name,
        (finalizer ∈ finalizers ↔ finalizer ∈ job.finalizers) ∧
          (job.deletionTimestamp = true → control.Held name finalizers)
  | .delete name =>
      ∀ job ∈ control.cluster.jobs name, control.Held name job.finalizers
  | .reconcile name job =>
      ∃ current ∈ control.cluster.jobs name,
        job.deletionTimestamp = true → current.deletionTimestamp = true
  | .call name reply =>
      ∀ pass ∈ control.passes name, ∀ resource ∈ pass.deletes?,
        reply = .unreachable → control.cluster.has name resource = false
  | .restart => True

instance (control : Control) :
    (event : Event) → Decidable (control.allowed event)
  | .create _ _ finalizers => inferInstanceAs (Decidable (finalizer ∉ finalizers))
  | .edit name _ finalizers => inferInstanceAs (Decidable
      (∀ job ∈ control.cluster.jobs name,
        (finalizer ∈ finalizers ↔ finalizer ∈ job.finalizers) ∧
          (job.deletionTimestamp = true → control.Held name finalizers)))
  | .delete name => inferInstanceAs (Decidable
      (∀ job ∈ control.cluster.jobs name, control.Held name job.finalizers))
  | .reconcile name job => inferInstanceAs (Decidable
      (∃ current ∈ control.cluster.jobs name,
        job.deletionTimestamp = true → current.deletionTimestamp = true))
  | .call name reply => inferInstanceAs (Decidable
      (∀ pass ∈ control.passes name, ∀ resource ∈ pass.deletes?,
        reply = .unreachable → control.cluster.has name resource = false))
  | .restart => isTrue trivial

end Control

def Control.initial : Control :=
  { cluster :=
      { jobs := fun _ => none
        services := fun _ => false
        statefulSets := fun _ => none }
    passes := fun _ => none }

end Malstrom.Kubernetes.Lifecycle
