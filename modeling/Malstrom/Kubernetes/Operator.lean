import Mathlib.Data.List.Basic

namespace Malstrom.Kubernetes

/-! The rescaling of an existing job by the Kubernetes operator, where every
call may fail. -/

/-- The end of a call to Kubernetes or to the coordinator.  A call whose answer
got lost has an error for the operator but was carried out. -/
inductive Outcome where
  | succeeds
  | fails
  | lost
  deriving DecidableEq

structure Cluster where
  /-- `spec.replicas` of the job. -/
  spec : Int32
  /-- `spec.replicas` of the worker StatefulSet. -/
  workerSts : Int32
  /-- Number of workers the coordinator runs the job on. -/
  coordinator : UInt64
  deriving DecidableEq

/-- The outcome of every call of a reconcile pass, by its place in the code. -/
structure Calls where
  compare : Outcome
  coordinatorSvc : Outcome
  workerSvc : Outcome
  getWorkerSts : Outcome
  connect : Outcome
  scaleWorkerSts : Outcome
  rescale : Outcome
  coordinatorSts : Outcome
  workerSts : Outcome
  status : Outcome
  deriving DecidableEq

inductive DecisionAction where
  | patch
  | noOp
  deriving DecidableEq

inductive Report where
  | noOp
  | patched
  | failed
  deriving DecidableEq

inductive Event where
  | changeSpec (replicas : Int32)
  | reconcile (calls : Calls)
  deriving DecidableEq

/-- A call which leaves the rest of the pass to an error, if it ends in one. -/
def Outcome.call (outcome : Outcome) (effect : Cluster → Cluster)
    (cluster : Cluster) : Except Cluster Cluster :=
  match outcome with
  | .succeeds => .ok (effect cluster)
  | .fails => .error cluster
  | .lost => .error (effect cluster)

def Outcome.TakesEffect : Outcome → Prop
  | .succeeds | .lost => True
  | .fails => False

/-- `replicas as u64`. -/
def asU64 (replicas : Int32) : UInt64 := replicas.toInt64.toUInt64

/-- Kubernetes refuses a negative number of replicas. -/
def patchReplicas (outcome : Outcome) (replicas : Int32) (cluster : Cluster) :
    Except Cluster Cluster :=
  if replicas < 0 then .error cluster
  else outcome.call (fun c => { c with workerSts := replicas }) cluster

def requestRescale (outcome : Outcome) (desiredScale : UInt64)
    (cluster : Cluster) : Except Cluster Cluster :=
  outcome.call (fun c => { c with coordinator := desiredScale }) cluster

def performRescale (calls : Calls) (desiredScale currentScale : Int32)
    (cluster : Cluster) : Except Cluster Cluster := do
  let cluster ← calls.connect.call id cluster
  if desiredScale - currentScale = 0 then
    return cluster
  else if 0 < desiredScale - currentScale then
    let cluster ← patchReplicas calls.scaleWorkerSts desiredScale cluster
    requestRescale calls.rescale (asU64 desiredScale) cluster
  else
    let cluster ← requestRescale calls.rescale (asU64 desiredScale) cluster
    patchReplicas calls.scaleWorkerSts desiredScale cluster

def patch (calls : Calls) (cluster : Cluster) : Except Cluster Cluster := do
  let cluster ← calls.coordinatorSvc.call id cluster
  let cluster ← calls.workerSvc.call id cluster
  let cluster ← calls.getWorkerSts.call id cluster
  let cluster ←
    if cluster.workerSts ≠ cluster.spec then
      performRescale calls cluster.spec cluster.workerSts cluster
    else
      pure cluster
  let cluster ← calls.coordinatorSts.call id cluster
  let cluster ← patchReplicas calls.workerSts cluster.spec cluster
  calls.status.call id cluster

def compareWithCluster (calls : Calls) (cluster : Cluster) :
    Except Cluster DecisionAction := do
  let cluster ← calls.compare.call id cluster
  if cluster.workerSts ≠ cluster.spec then
    return .patch
  else
    return .noOp

/-- Of a job which has its finalizer and is not to be deleted. -/
def makeDecision (calls : Calls) (cluster : Cluster) : DecisionAction :=
  match compareWithCluster calls cluster with
  | .ok decision => decision
  | .error _ => .noOp

def reconcile (calls : Calls) (cluster : Cluster) : Cluster × Report :=
  match makeDecision calls cluster with
  | .noOp => (cluster, .noOp)
  | .patch =>
      match patch calls cluster with
      | .ok cluster => (cluster, .patched)
      | .error cluster => (cluster, .failed)

def step (cluster : Cluster) : Event → Cluster
  | .changeSpec replicas => { cluster with spec := replicas }
  | .reconcile calls => (reconcile calls cluster).1

def run (cluster : Cluster) (events : List Event) : Cluster :=
  events.foldl step cluster

def Serves (coordinator : UInt64) (replicas : Int32) : Prop :=
  (coordinator.toNat : Int) = replicas.toInt

instance (coordinator : UInt64) (replicas : Int32) :
    Decidable (Serves coordinator replicas) :=
  inferInstanceAs (Decidable ((coordinator.toNat : Int) = _))

namespace Cluster

/-- The StatefulSet and the coordinator are as the job wants them. -/
def InSync (cluster : Cluster) : Prop :=
  cluster.workerSts = cluster.spec ∧ Serves cluster.coordinator cluster.spec

instance (cluster : Cluster) : Decidable cluster.InSync :=
  inferInstanceAs (Decidable (_ ∧ _))

/-- Nothing but the coordinator's scale has to be as the StatefulSet says: what
the decision does not look at is in order whenever it finds no work. -/
structure Recoverable (cluster : Cluster) : Prop where
  served : 0 ≤ cluster.workerSts
  settled : cluster.workerSts = cluster.spec → Serves cluster.coordinator cluster.spec

end Cluster

/-- A pass which finds nothing to do, or has done it, leaves all in sync. -/
def Right (result : Cluster × Report) : Prop :=
  result.2 ≠ .failed → result.1.InSync

/-- The calls of a pass ahead of the first one with an effect. -/
def Calls.Reaches (calls : Calls) : Prop :=
  calls.compare = .succeeds ∧ calls.coordinatorSvc = .succeeds ∧
    calls.workerSvc = .succeeds ∧ calls.getWorkerSts = .succeeds ∧
    calls.connect = .succeeds

/-- What is to hold for an event, by the cluster it comes upon. -/
def Meets (cluster : Cluster) : Event → Prop
  | .changeSpec replicas =>
      cluster.workerSts = replicas → Serves cluster.coordinator replicas
  | .reconcile calls =>
      (calls.compare ≠ .succeeds → cluster.InSync) ∧
      -- the StatefulSet is scaled up ahead of the coordinator
      (0 ≤ cluster.spec → 0 < cluster.spec - cluster.workerSts →
        calls.Reaches → calls.scaleWorkerSts.TakesEffect →
        (calls.scaleWorkerSts = .succeeds ∧ calls.rescale.TakesEffect) ∨
          Serves cluster.coordinator cluster.spec)

/-- The events of a run meet this one after the other. -/
def AllMeet (cluster : Cluster) : List Event → Prop
  | [] => True
  | event :: rest => Meets cluster event ∧ AllMeet (step cluster event) rest

/-! ### What a pass does -/

section

variable {cluster : Cluster} {calls : Calls}

namespace Cluster

def grow (cluster : Cluster) : Cluster :=
  { cluster with workerSts := cluster.spec }

def shrink (cluster : Cluster) : Cluster :=
  { cluster with coordinator := asU64 cluster.spec }

end Cluster

theorem Outcome.call_same (outcome : Outcome) {effect : Cluster → Cluster}
    (same : effect cluster = cluster) :
    outcome.call effect cluster =
      if outcome = .succeeds then .ok cluster else .error cluster := by
  cases outcome <;> simp [Outcome.call, same]

@[simp] theorem Outcome.call_id (outcome : Outcome) :
    outcome.call id cluster =
      if outcome = .succeeds then .ok cluster else .error cluster :=
  outcome.call_same rfl

@[simp] theorem ok_bind (next : Cluster → Except Cluster Cluster) :
    (Except.ok cluster >>= next) = next cluster := rfl

@[simp] theorem ite_bind (p : Prop) [Decidable p]
    (next : Cluster → Except Cluster Cluster) :
    ((if p then .ok cluster else .error cluster : Except Cluster Cluster) >>=
      next) = if p then next cluster else .error cluster := by
  split <;> rfl

theorem patchReplicas_refused (outcome : Outcome) {replicas : Int32}
    (refused : ¬ 0 ≤ replicas) :
    patchReplicas outcome replicas cluster = .error cluster :=
  if_pos (Int32.not_le.mp refused)

theorem patchReplicas_served (cluster : Cluster) (outcome : Outcome)
    (served : 0 ≤ cluster.spec) :
    patchReplicas outcome cluster.spec cluster =
      outcome.call Cluster.grow cluster := by
  rw [patchReplicas, if_neg (Int32.not_lt.mpr served)]
  cases outcome <;> rfl

theorem asU64_serves {replicas : Int32} (served : 0 ≤ replicas) :
    Serves (asU64 replicas) replicas := by
  have nonneg : 0 ≤ replicas.toInt := by
    simpa [Int32.le_iff_toInt_le] using served
  have wide : (0 : Int64) ≤ replicas.toInt64 := by
    simpa [Int64.le_iff_toInt_le] using nonneg
  have same : (asU64 replicas).toNat = replicas.toInt64.toNatClampNeg :=
    Int64.toNat_toUInt64_of_le wide
  rw [Serves, same, ← Int64.toNat_toInt, Int32.toInt_toInt64]
  omega

theorem requestRescale_succeeds :
    requestRescale .succeeds (asU64 cluster.spec) cluster =
      .ok cluster.shrink := rfl

/-- The calls after the rescale find nothing to change. -/
theorem patch_end (cluster : Cluster) (calls : Calls)
    (same : cluster.workerSts = cluster.spec)
    (served : 0 ≤ cluster.spec) :
    let result := (do
      let cluster ← calls.coordinatorSts.call id cluster
      let cluster ← patchReplicas calls.workerSts cluster.spec cluster
      calls.status.call id cluster : Except Cluster Cluster)
    result = .ok cluster ∨ result = .error cluster := by
  have unchanged : cluster.grow = cluster := by
    cases cluster
    exact congrArg (fun replicas => Cluster.mk _ replicas _) same.symm
  simp only [Outcome.call_id, patchReplicas_served cluster _ served,
    Outcome.call_same _ unchanged, ite_bind]
  split
  · split
    · split
      · exact .inl rfl
      · exact .inr rfl
    · exact .inr rfl
  · exact .inr rfl

theorem reconcile_idle (nothing : calls.compare ≠ .succeeds ∨
    cluster.workerSts = cluster.spec) :
    reconcile calls cluster = (cluster, .noOp) := by
  have decision : makeDecision calls cluster = .noOp := by
    by_cases compared : calls.compare = .succeeds
    · have same := nothing.resolve_left (not_not_intro compared)
      simp [makeDecision, compareWithCluster, compared, same, bind, Except.bind,
        pure, Except.pure]
    · simp [makeDecision, compareWithCluster, compared, bind, Except.bind]
  simp only [reconcile, decision]

theorem reconcile_patch (compared : calls.compare = .succeeds)
    (differs : cluster.workerSts ≠ cluster.spec) :
    reconcile calls cluster =
      match patch calls cluster with
      | .ok cluster => (cluster, .patched)
      | .error cluster => (cluster, .failed) := by
  have decision : makeDecision calls cluster = .patch := by
    simp [makeDecision, compareWithCluster, compared, differs, bind,
      Except.bind, pure, Except.pure]
  simp only [reconcile, decision]

/-- A call which fails ahead of the rescale leaves all as it was. -/
theorem patch_stopped (compared : calls.compare = .succeeds)
    (differs : cluster.workerSts ≠ cluster.spec) (stopped : ¬ calls.Reaches) :
    patch calls cluster = .error cluster := by
  simp only [patch, performRescale, Outcome.call_id, ite_bind]
  split
  next coordinatorSvc =>
    split
    next workerSvc =>
      split
      next getWorkerSts =>
        have connect : calls.connect ≠ .succeeds := fun connect => stopped
          ⟨compared, coordinatorSvc, workerSvc, getWorkerSts, connect⟩
        simp only [if_neg connect]
        rfl
      next => rfl
    next => rfl
  next => rfl

theorem patch_up (reaches : calls.Reaches)
    (up : 0 < cluster.spec - cluster.workerSts) :
    patch calls cluster = (do
      let grown ← patchReplicas calls.scaleWorkerSts cluster.spec cluster
      let scaled ← requestRescale calls.rescale (asU64 cluster.spec) grown
      let cluster ← calls.coordinatorSts.call id scaled
      let cluster ← patchReplicas calls.workerSts cluster.spec cluster
      calls.status.call id cluster) := by
  obtain ⟨-, coordinatorSvc, workerSvc, getWorkerSts, connect⟩ := reaches
  have differs : cluster.workerSts ≠ cluster.spec := by
    intro same
    simp [same] at up
  have moved : cluster.spec - cluster.workerSts ≠ 0 := by grind
  simp [patch, performRescale, coordinatorSvc, workerSvc, getWorkerSts, connect,
    differs, moved, up]

theorem patch_down (reaches : calls.Reaches)
    (differs : cluster.workerSts ≠ cluster.spec)
    (down : ¬ 0 < cluster.spec - cluster.workerSts) :
    patch calls cluster = (do
      let shrunk ← requestRescale calls.rescale (asU64 cluster.spec) cluster
      let scaled ← patchReplicas calls.scaleWorkerSts cluster.spec shrunk
      let cluster ← calls.coordinatorSts.call id scaled
      let cluster ← patchReplicas calls.workerSts cluster.spec cluster
      calls.status.call id cluster) := by
  obtain ⟨-, coordinatorSvc, workerSvc, getWorkerSts, connect⟩ := reaches
  have moved : cluster.spec - cluster.workerSts ≠ 0 := by grind
  simp [patch, performRescale, coordinatorSvc, workerSvc, getWorkerSts, connect,
    differs, moved, down]

inductive Pass (cluster : Cluster) (calls : Calls) : Cluster × Report → Prop
  | idle
      (nothing : calls.compare ≠ .succeeds ∨
        cluster.workerSts = cluster.spec) :
      Pass cluster calls (cluster, .noOp)
  | aborted
      (compared : calls.compare = .succeeds)
      (differs : cluster.workerSts ≠ cluster.spec)
      (ahead : ¬ (0 ≤ cluster.spec ∧ 0 < cluster.spec - cluster.workerSts ∧
        calls.Reaches ∧ calls.scaleWorkerSts.TakesEffect)) :
      Pass cluster calls (cluster, .failed)
  /-- Only the StatefulSet was scaled up. -/
  | grown
      (served : 0 ≤ cluster.spec)
      (up : 0 < cluster.spec - cluster.workerSts)
      (reaches : calls.Reaches)
      (carriedOut : calls.scaleWorkerSts.TakesEffect)
      (stuck : ¬ (calls.scaleWorkerSts = .succeeds ∧
        calls.rescale.TakesEffect)) :
      Pass cluster calls (cluster.grow, .failed)
  /-- Only the coordinator was scaled down. -/
  | shrunk
      (compared : calls.compare = .succeeds)
      (differs : cluster.workerSts ≠ cluster.spec)
      (down : ¬ 0 < cluster.spec - cluster.workerSts) :
      Pass cluster calls (cluster.shrink, .failed)
  | scaled (report : Report)
      (compared : calls.compare = .succeeds)
      (differs : cluster.workerSts ≠ cluster.spec)
      (served : 0 ≤ cluster.spec)
      (carriedOut : 0 < cluster.spec - cluster.workerSts →
        calls.scaleWorkerSts = .succeeds ∧ calls.rescale.TakesEffect) :
      Pass cluster calls (cluster.shrink.grow, report)

theorem pass_scaled (compared : calls.compare = .succeeds)
    (differs : cluster.workerSts ≠ cluster.spec) (served : 0 ≤ cluster.spec)
    (carriedOut : 0 < cluster.spec - cluster.workerSts →
      calls.scaleWorkerSts = .succeeds ∧ calls.rescale.TakesEffect) :
    Pass cluster calls
      (match (do
        let cluster ← calls.coordinatorSts.call id cluster.shrink.grow
        let cluster ← patchReplicas calls.workerSts cluster.spec cluster
        calls.status.call id cluster : Except Cluster Cluster) with
      | .ok cluster => (cluster, .patched)
      | .error cluster => (cluster, .failed)) := by
  rcases patch_end cluster.shrink.grow calls rfl served with ended | ended
  · rw [ended]
    exact .scaled .patched compared differs served carriedOut
  · rw [ended]
    exact .scaled .failed compared differs served carriedOut

theorem reconcile_pass : Pass cluster calls (reconcile calls cluster) := by
  by_cases nothing : calls.compare ≠ .succeeds ∨
      cluster.workerSts = cluster.spec
  · rw [reconcile_idle nothing]
    exact .idle nothing
  push Not at nothing
  obtain ⟨compared, differs⟩ := nothing
  rw [reconcile_patch compared differs]
  by_cases reaches : calls.Reaches
  swap
  · rw [patch_stopped compared differs reaches]
    exact .aborted compared differs fun ahead => reaches ahead.2.2.1
  by_cases up : 0 < cluster.spec - cluster.workerSts
  · rw [patch_up reaches up]
    by_cases served : 0 ≤ cluster.spec
    swap
    · rw [patchReplicas_refused _ served]
      exact .aborted compared differs fun ahead => served ahead.1
    rw [patchReplicas_served cluster _ served]
    cases scale : calls.scaleWorkerSts with
    | fails =>
        refine .aborted compared differs fun ahead => ?_
        simpa [scale, Outcome.TakesEffect] using ahead.2.2.2
    | lost =>
        refine .grown served up reaches ?_ ?_
        · simp [scale, Outcome.TakesEffect]
        · simp [scale]
    | succeeds =>
        cases rescale : calls.rescale with
        | fails =>
            refine .grown served up reaches ?_ ?_
            · simp [scale, Outcome.TakesEffect]
            · simp [rescale, Outcome.TakesEffect]
        | lost =>
            refine .scaled .failed compared differs served fun _ => ?_
            simp [scale, rescale, Outcome.TakesEffect]
        | succeeds =>
            refine pass_scaled compared differs served fun _ => ?_
            simp [scale, rescale, Outcome.TakesEffect]
  · rw [patch_down reaches differs up]
    cases calls.rescale with
    | fails => exact .aborted compared differs fun ahead => up ahead.2.1
    | lost => exact .shrunk compared differs up
    | succeeds =>
        rw [requestRescale_succeeds, ok_bind]
        by_cases served : 0 ≤ cluster.spec
        swap
        · rw [patchReplicas_refused _ served]
          exact .shrunk compared differs up
        have grown : patchReplicas calls.scaleWorkerSts cluster.spec
            cluster.shrink = calls.scaleWorkerSts.call .grow cluster.shrink :=
          patchReplicas_served cluster.shrink _ served
        rw [grown]
        cases calls.scaleWorkerSts with
        | fails => exact .shrunk compared differs up
        | lost =>
            exact .scaled .failed compared differs served fun yes =>
              absurd yes up
        | succeeds =>
            exact pass_scaled compared differs served fun yes =>
              absurd yes up

/-! ### What the decision relies on -/

/-- Exactly the events which meet the condition leave the decision with what
it relies on, and are right. -/
theorem meets_iff (recoverable : cluster.Recoverable) (event : Event) :
    Meets cluster event ↔
      (step cluster event).Recoverable ∧
      ∀ calls, event = .reconcile calls →
        Right (reconcile calls cluster) := by
  cases event with
  | changeSpec replicas =>
      simp only [Meets, step]
      constructor
      · intro meets
        exact ⟨⟨recoverable.served, meets⟩,
          fun _ impossible => nomatch impossible⟩
      · rintro ⟨kept, -⟩
        exact kept.settled
  | reconcile calls =>
      simp only [step, Event.reconcile.injEq, forall_eq']
      generalize isResult : reconcile calls cluster = result
      have pass : Pass cluster calls result := isResult ▸ reconcile_pass
      cases pass with
      | idle nothing =>
          constructor
          · intro meets
            refine ⟨recoverable, fun _ => ?_⟩
            rcases nothing with failed | same
            · exact meets.1 failed
            · exact ⟨same, recoverable.settled same⟩
          · rintro ⟨-, right⟩
            have inSync := right nofun
            exact ⟨fun _ => inSync, fun _ _ _ _ => .inr inSync.2⟩
      | aborted compared differs ahead =>
          refine ⟨fun _ => ⟨recoverable, fun failed => absurd rfl failed⟩, ?_⟩
          intro _
          refine ⟨fun failed => absurd compared failed, ?_⟩
          intro served up reaches carriedOut
          exact absurd ⟨served, up, reaches, carriedOut⟩ ahead
      | grown served up reaches carriedOut stuck =>
          have compared := reaches.1
          constructor
          · intro meets
            have runs :=
              (meets.2 served up reaches carriedOut).resolve_left stuck
            exact ⟨⟨served, fun _ => runs⟩, fun failed => absurd rfl failed⟩
          · rintro ⟨kept, -⟩
            exact ⟨fun failed => absurd compared failed,
              fun _ _ _ _ => .inr (kept.settled rfl)⟩
      | shrunk compared differs down =>
          refine ⟨fun _ => ⟨⟨recoverable.served, fun same => absurd same differs⟩,
            fun failed => absurd rfl failed⟩, fun _ => ?_⟩
          exact ⟨fun failed => absurd compared failed,
            fun _ up => absurd up down⟩
      | scaled report compared differs served carriedOut =>
          have runs := asU64_serves served
          refine ⟨fun _ => ⟨⟨served, fun _ => runs⟩, fun _ => ⟨rfl, runs⟩⟩,
            fun _ => ?_⟩
          exact ⟨fun failed => absurd compared failed,
            fun _ up _ _ => .inl (carriedOut up)⟩

theorem step_served (event : Event) (served : 0 ≤ cluster.workerSts) :
    0 ≤ (step cluster event).workerSts := by
  cases event with
  | changeSpec replicas => exact served
  | reconcile calls =>
      simp only [step]
      generalize isResult : reconcile calls cluster = result
      have pass : Pass cluster calls result := isResult ▸ reconcile_pass
      cases pass with
      | idle | aborted | shrunk => exact served
      | grown wanted => exact wanted
      | scaled _ _ _ wanted => exact wanted

/-- No call of a pass fails. -/
def undisturbed : Calls where
  compare := .succeeds
  coordinatorSvc := .succeeds
  workerSvc := .succeeds
  getWorkerSts := .succeeds
  connect := .succeeds
  scaleWorkerSts := .succeeds
  rescale := .succeeds
  coordinatorSts := .succeeds
  workerSts := .succeeds
  status := .succeeds

theorem meets_undisturbed : Meets cluster (.reconcile undisturbed) :=
  ⟨fun failed => absurd rfl failed, fun _ _ _ _ => .inl ⟨rfl, trivial⟩⟩

theorem recoverable_iff (served : 0 ≤ cluster.workerSts) :
    cluster.Recoverable ↔ Right (reconcile undisturbed cluster) := by
  constructor
  · intro recoverable
    exact ((meets_iff recoverable _).mp meets_undisturbed).2 _ rfl
  · intro right
    refine ⟨served, fun same => ?_⟩
    rw [reconcile_idle (.inr same)] at right
    have idle : Report.noOp ≠ .failed := by decide
    exact (right idle).2

theorem Cluster.InSync.recoverable (inSync : cluster.InSync) :
    cluster.Recoverable := by
  refine ⟨?_, fun _ => inSync.2⟩
  rw [inSync.1, Int32.le_iff_toInt_le, ← inSync.2]
  exact Int.natCast_nonneg _

/-- Every pass of the run is right, and so is one in which no call fails, after
any of its events. -/
def Keeps (start : Cluster) (events : List Event) : Prop :=
  ∀ before after, events = before ++ after →
    Right (reconcile undisturbed (run start before)) ∧
    ∀ calls, after.head? = some (.reconcile calls) →
      Right (reconcile calls (run start before))

theorem keeps_cons {event : Event} {rest : List Event} :
    Keeps cluster (event :: rest) ↔
      (Right (reconcile undisturbed cluster) ∧
        ∀ calls, event = .reconcile calls →
          Right (reconcile calls cluster)) ∧
      Keeps (step cluster event) rest := by
  constructor
  · intro keeps
    refine ⟨?_, fun before after split => ?_⟩
    · have now := keeps [] (event :: rest) rfl
      exact ⟨now.1, fun calls isPass => now.2 calls (congrArg some isPass)⟩
    · exact keeps (event :: before) after (congrArg _ split)
  · rintro ⟨⟨recovers, right⟩, later⟩ before after split
    cases before with
    | nil =>
        refine ⟨recovers, fun calls isPass => right calls ?_⟩
        rw [← List.nil_append after, ← split] at isPass
        exact Option.some.inj isPass
    | cons first before =>
        obtain ⟨rfl, atRest⟩ := List.cons.inj split
        exact later before after atRest

theorem allMeet_iff (recoverable : cluster.Recoverable)
    (events : List Event) : AllMeet cluster events ↔ Keeps cluster events := by
  induction events generalizing cluster with
  | nil =>
      refine iff_of_true trivial ?_
      intro before after split
      obtain ⟨rfl, rfl⟩ := List.append_eq_nil_iff.mp split.symm
      exact ⟨(recoverable_iff recoverable.served).mp recoverable,
        fun _ impossible => nomatch impossible⟩
  | cons event rest ih =>
      have served := step_served event recoverable.served
      rw [AllMeet, keeps_cons, meets_iff recoverable]
      constructor
      · rintro ⟨⟨recovers, right⟩, later⟩
        exact ⟨⟨(recoverable_iff recoverable.served).mp recoverable, right⟩,
          (ih recovers).mp later⟩
      · rintro ⟨⟨-, right⟩, later⟩
        have recovers := (recoverable_iff served).mpr (later [] rest rfl).1
        exact ⟨⟨recovers, right⟩, (ih recovers).mpr later⟩

end

/-- A run of events on a job which was created in sync loses no rescale exactly
if each of them meets the condition. -/
theorem rescale_kept_iff (start : Cluster) (inSync : start.InSync)
    (events : List Event) : AllMeet start events ↔ Keeps start events :=
  allMeet_iff inSync.recoverable events

theorem rescale_kept_down :
    Cluster.InSync ⟨3, 3, 3⟩ ∧
      (AllMeet ⟨3, 3, 3⟩ [.changeSpec 2,
          .reconcile { undisturbed with scaleWorkerSts := .fails },
          .reconcile undisturbed] ↔
        Keeps ⟨3, 3, 3⟩ [.changeSpec 2,
          .reconcile { undisturbed with scaleWorkerSts := .fails },
          .reconcile undisturbed]) :=
  ⟨by decide, rescale_kept_iff ⟨3, 3, 3⟩ (by decide) _⟩

/-- The workers were added but the coordinator was not reached: the next pass
finds nothing to do. -/
theorem rescale_lost :
    ¬ ∀ (start : Cluster) (events : List Event) (calls : Calls),
      start.InSync → Right (reconcile calls (run start events)) := by
  intro kept
  have right := kept ⟨2, 2, 2⟩ [.changeSpec 3,
    .reconcile { undisturbed with rescale := .fails }] undisturbed (by decide)
  have unserved : ¬ (reconcile undisturbed (run ⟨2, 2, 2⟩ [.changeSpec 3,
      .reconcile { undisturbed with rescale := .fails }])).1.InSync := by
    decide
  exact unserved (right (by decide))

end Malstrom.Kubernetes
