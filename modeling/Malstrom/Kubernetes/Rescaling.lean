import Malstrom.Kubernetes.Operator
import Malstrom.Kubernetes.Reconciliation

namespace Malstrom.Kubernetes.Lifecycle

/-! A pass for an existing job, call by call, does to the worker StatefulSet what
the rescaling of the job does in one go. -/

def Reply.outcome : Reply → Outcome
  | .served => .succeeds
  | .refused | .unreachable => .fails
  | .lost => .lost

/-- No call is made twice in such a pass. -/
def calls (reply : Request → Reply) (job : MalstromJob) : Calls where
  compare := (reply .compareWithCluster).outcome
  coordinatorSvc := (reply (.apply .coordinatorSvc)).outcome
  workerSvc := (reply (.apply .workerSvc)).outcome
  getWorkerSts := (reply .getWorkerSts).outcome
  connect := (reply .connect).outcome
  scaleWorkerSts := (reply .scaleWorkerSts).outcome
  rescale := (reply .rescale).outcome
  coordinatorSts := (reply (.apply .coordinatorSts)).outcome
  workerSts := (reply (.apply .workerSts)).outcome
  status := (reply (.patchStatus job.reported)).outcome

def Request.perform (reply : Request → Reply) (request : Request)
    (seen : Kubernetes.Cluster) :
    Except Kubernetes.Cluster Kubernetes.Cluster :=
  match request with
  | .apply .workerSts | .scaleWorkerSts =>
      patchReplicas (reply request).outcome seen.spec seen
  | .rescale =>
      requestRescale (reply request).outcome (asU64 seen.spec) seen
  | _ => (reply request).outcome.call id seen

/-- The job is there with its StatefulSet, in these scales. -/
structure Views (cluster : Cluster) (name : String) (job : MalstromJob)
    (seen : Kubernetes.Cluster) : Prop where
  isJob : cluster.jobs name = some job
  present : cluster.has name .workerSts = true
  spec : seen.spec = job.replicas
  scale : seen.workerSts = cluster.scale name

/-- The call is answered as it does to the scales. -/
def Agree (reply : Request → Reply) (name : String) (job : MalstromJob)
    (cluster : Cluster) (seen : Kubernetes.Cluster) (request : Request) : Prop :=
  let (next, answer) := (reply request).answer cluster
    (request.serve cluster name job)
  ∃ after, Views next name job after ∧
    (answer = .ok ∧ request.perform reply seen = .ok after ∨
      answer ≠ .ok ∧ request.perform reply seen = .error after)

/-- The pass for the job goes on to its end, and each call has its reply. -/
inductive Ends (reply : Request → Reply) (name : String) :
    Control → Control → Prop
  | over {control : Control} (idle : control.passes name = none) :
      Ends reply name control control
  | call {control later : Control} {job : MalstromJob} {request : Request}
      {rest : List Request}
      (isPass : control.passes name = some ⟨job, request :: rest⟩)
      (ends : Ends reply name
        (control.step (.call name (reply request))) later) :
      Ends reply name control later

/-- The pass leaves the scales as they are after the calls, however they end. -/
def Brings (reply : Request → Reply) (name : String) (job : MalstromJob)
    (control : Control)
    (result : Except Kubernetes.Cluster Kubernetes.Cluster) : Prop :=
  ∃ later, Ends reply name control later ∧
    ∃ seen, Views later.cluster name job seen ∧
      (result = .ok seen ∨ result = .error seen)

section

variable {reply : Request → Reply} {name : String} {job : MalstromJob}
  {cluster next : Cluster} {seen after : Kubernetes.Cluster}
  {request : Request} {rest : List Request} {answer : Answer}

theorem Views.served (views : Views cluster name job seen)
    (plain : request.isPlain = true)
    (served : request.serve cluster name job = .ok next)
    (spec : after.spec = seen.spec)
    (scale : after.workerSts =
      if request = .apply .workerSts ∨ request = .scaleWorkerSts then
        job.replicas
      else seen.workerSts) :
    Views next name job after := by
  obtain ⟨jobs, kept, -, -, scales⟩ := serve_plain plain served
  refine ⟨(congrFun jobs name).trans views.isJob, kept name _ views.present,
    spec.trans views.spec, ?_⟩
  rw [scale, scales, views.scale]
  simp

theorem Views.answered {effect : Kubernetes.Cluster → Kubernetes.Cluster}
    (views : Views cluster name job seen)
    (performs : request.perform reply seen =
      (reply request).outcome.call effect seen)
    (served : request.serve cluster name job = .ok next)
    (viewed : Views next name job (effect seen)) :
    Agree reply name job cluster seen request := by
  unfold Agree
  rw [performs, served]
  cases reply request with
  | served => exact ⟨effect seen, viewed, .inl ⟨rfl, rfl⟩⟩
  | refused | unreachable => exact ⟨seen, views, .inr ⟨nofun, rfl⟩⟩
  | lost => exact ⟨effect seen, viewed, .inr ⟨nofun, rfl⟩⟩

theorem Views.scaled (views : Views cluster name job seen)
    (performs : request.perform reply seen =
      patchReplicas (reply request).outcome seen.spec seen)
    (isScale : request = .apply .workerSts ∨ request = .scaleWorkerSts)
    (serves : request.serve cluster name job =
      cluster.applySts (Resource.workerSts.nameAny name) job.replicas) :
    Agree reply name job cluster seen request := by
  have plain : request.isPlain = true := by
    rcases isScale with rfl | rfl <;> rfl
  by_cases valid : 0 ≤ seen.spec
  · have served : request.serve cluster name job =
        .ok (cluster.setStatefulSet (Resource.workerSts.nameAny name)
          (some job.replicas)) := by
      rw [serves, Cluster.applySts,
        if_neg (Int32.not_lt.mpr (views.spec ▸ valid))]
    refine views.answered (performs.trans (patchReplicas_served _ _ valid)) served
      (views.served plain served rfl ?_)
    rw [if_pos isScale, ← views.spec]
    rfl
  · have refused : request.serve cluster name job = .error .other := by
      rw [serves, Cluster.applySts,
        if_pos (Int32.not_le.mp (views.spec ▸ valid))]
    unfold Agree
    rw [performs, patchReplicas_refused _ valid, refused]
    refine ⟨seen, ?_, .inr ⟨?_, rfl⟩⟩
    · cases reply request <;> exact views
    · cases reply request <;> nofun

theorem perform_rescale :
    Request.rescale.perform reply seen =
      (reply .rescale).outcome.call Kubernetes.Cluster.shrink seen := by
  cases replied : reply .rescale <;>
    simp [Request.perform, requestRescale, replied, Reply.outcome, Outcome.call,
      Kubernetes.Cluster.shrink]

theorem Views.call (views : Views cluster name job seen)
    (plain : request.isPlain = true) :
    Agree reply name job cluster seen request := by
  cases request with
  | addFinalizer => cases plain
  | delete => cases plain
  | deleteFinalizer => cases plain
  | compareWithCluster | getWorkerSts =>
      exact views.answered rfl (if_pos views.present) views
  | connect => exact views.answered rfl rfl views
  | rescale =>
      have served : Request.serve cluster name job .rescale = .ok cluster := rfl
      exact views.answered perform_rescale served
        (views.served rfl served rfl (if_neg (by simp)).symm)
  | patchStatus =>
      exact views.answered rfl
        (if_pos (Option.isSome_of_eq_some views.isJob)) views
  | scaleWorkerSts =>
      exact views.scaled rfl (.inr rfl) (if_pos views.present)
  | apply resource =>
      cases resource with
      | workerSts => exact views.scaled rfl (.inl rfl) rfl
      | coordinatorSvc =>
          have served : Request.serve cluster name job (.apply .coordinatorSvc) =
            .ok _ := rfl
          exact views.answered rfl served (views.served rfl served rfl
            (if_neg (by simp)).symm)
      | workerSvc =>
          have served : Request.serve cluster name job (.apply .workerSvc) =
            .ok _ := rfl
          exact views.answered rfl served (views.served rfl served rfl
            (if_neg (by simp)).symm)
      | coordinatorSts =>
          have applied : cluster.applySts (Resource.coordinatorSts.nameAny name) 1 =
              .ok (cluster.setStatefulSet
                (Resource.coordinatorSts.nameAny name) (some 1)) :=
            if_neg (by decide)
          have served : Request.serve cluster name job (.apply .coordinatorSts) =
            .ok _ := applied
          exact views.answered rfl served (views.served rfl served rfl
            (if_neg (by simp)).symm)

/-! ### The pass as a whole -/

theorem Brings.over {control : Control} (idle : control.passes name = none)
    (views : Views control.cluster name job seen) :
    Brings reply name job control (.ok seen) ∧
      Brings reply name job control (.error seen) :=
  ⟨⟨control, .over idle, seen, views, .inl rfl⟩,
    ⟨control, .over idle, seen, views, .inr rfl⟩⟩

/-- A call which is not answered leaves the rest of the pass to its error. -/
theorem Brings.call {control : Control}
    {rest : Kubernetes.Cluster → Except Kubernetes.Cluster Kubernetes.Cluster}
    {todo : List Request} (views : Views control.cluster name job seen)
    (plain : request.isPlain = true) (minds : request ≠ .compareWithCluster)
    (isPass : control.passes name = some ⟨job, request :: todo⟩)
    (goesOn : ∀ (next : Control) (after : Kubernetes.Cluster),
      Views next.cluster name job after →
        next.passes name = Pass.continue job
          (request.proceed next.cluster name job .ok todo) →
        Brings reply name job next (rest after)) :
    Brings reply name job control (request.perform reply seen >>= rest) := by
  have agrees : Agree reply name job control.cluster seen request :=
    views.call plain
  unfold Agree at agrees
  rcases isAnswer : (reply request).answer control.cluster
    (request.serve control.cluster name job) with ⟨cluster, answer⟩
  rw [isAnswer] at agrees
  obtain ⟨after, viewed, agrees⟩ := agrees
  have called : control.step (.call name (reply request)) =
      Control.setPass ⟨cluster, control.passes⟩ name
        (Pass.continue job (request.proceed cluster name job answer todo)) := by
    simp only [Control.step, isPass, Control.call, isAnswer]
  have next : Brings reply name job
      (control.step (.call name (reply request)))
      (request.perform reply seen >>= rest) := by
    rw [called]
    rcases agrees with ⟨rfl, performs⟩ | ⟨failed, performs⟩
    · rw [performs]
      refine goesOn _ after viewed ?_
      simp [Control.setPass]
    · rw [performs]
      refine (Brings.over ?_ viewed).2
      have stops : request.proceed cluster name job answer todo = none := by
        cases isLeft : request.proceed cluster name job answer todo with
        | none => rfl
        | some left =>
            refine absurd (Control.proceed_ok ?_ minds isLeft) failed
            rintro resource rfl
            cases plain
      simp [Control.setPass, stops, Pass.continue]
  obtain ⟨later, ends, brought⟩ := next
  exact ⟨later, .call isPass ends, brought⟩

/-- Requests after which the pass goes on as it was planned. -/
def Request.isFixed (request : Request) : Bool :=
  request.isPlain && request ≠ .compareWithCluster && request ≠ .getWorkerSts

theorem proceed_fixed (fixed : request.isFixed = true) :
    request.proceed cluster name job .ok rest = some rest := by
  cases request with
  | compareWithCluster | getWorkerSts | delete =>
      simp [Request.isFixed, Request.isPlain] at fixed
  | _ => rfl

def performAll (reply : Request → Reply) (requests : List Request)
    (seen : Kubernetes.Cluster) :
    Except Kubernetes.Cluster Kubernetes.Cluster :=
  requests.foldlM (fun seen request => request.perform reply seen) seen

theorem Brings.fixed {control : Control}
    {rest : Kubernetes.Cluster → Except Kubernetes.Cluster Kubernetes.Cluster}
    {todo requests : List Request} (views : Views control.cluster name job seen)
    (fixed : ∀ request ∈ requests, request.isFixed = true)
    (isPass : control.passes name =
      Pass.continue job (some (requests ++ todo)))
    (goesOn : ∀ (next : Control) (after : Kubernetes.Cluster),
      Views next.cluster name job after →
        next.passes name = Pass.continue job (some todo) →
        Brings reply name job next (rest after)) :
    Brings reply name job control (performAll reply requests seen >>= rest) := by
  induction requests generalizing control seen with
  | nil => exact goesOn control seen views isPass
  | cons request requests ih =>
      have isFixed := fixed request List.mem_cons_self
      have shape : performAll reply (request :: requests) seen >>= rest =
          request.perform reply seen >>= fun after =>
            performAll reply requests after >>= rest := by
        rw [performAll, List.foldlM_cons, bind_assoc]
        rfl
      rw [shape]
      refine Brings.call views ?_ ?_ isPass fun next after viewed isNext => ?_
      · simp_all [Request.isFixed]
      · simp_all [Request.isFixed]
      · rw [proceed_fixed isFixed] at isNext
        exact ih viewed (fun later member => fixed later (.tail _ member)) isNext

@[simp] theorem performAll_nil : performAll reply [] seen = .ok seen := rfl

@[simp] theorem performAll_cons (requests : List Request) :
    performAll reply (request :: requests) seen =
      request.perform reply seen >>= performAll reply requests :=
  List.foldlM_cons

@[simp] theorem performAll_singleton :
    performAll reply [request] seen = request.perform reply seen := by
  rw [performAll_cons]
  exact bind_pure _

theorem call_spec {outcome : Outcome}
    {effect : Kubernetes.Cluster → Kubernetes.Cluster}
    (keeps : (effect seen).spec = seen.spec)
    (ended : outcome.call effect seen = .ok after) : after.spec = seen.spec := by
  cases outcome with
  | succeeds => exact Except.ok.inj ended ▸ keeps
  | fails | lost => cases ended

theorem perform_spec (performs : request.perform reply seen = .ok after) :
    after.spec = seen.spec := by
  have scales {outcome : Outcome}
      (performs : patchReplicas outcome seen.spec seen = .ok after) :
      after.spec = seen.spec := by
    unfold patchReplicas at performs
    split at performs
    next => cases performs
    next => exact call_spec rfl performs
  unfold Request.perform at performs
  split at performs
  next => exact scales performs
  next => exact scales performs
  next => exact call_spec rfl performs
  next => exact call_spec rfl performs

theorem perform_bind {rest other : Kubernetes.Cluster →
      Except Kubernetes.Cluster Kubernetes.Cluster}
    (same : ∀ after, after.spec = seen.spec → rest after = other after) :
    (request.perform reply seen >>= rest) =
      (request.perform reply seen >>= other) := by
  cases performs : request.perform reply seen with
  | ok after => exact same after (perform_spec performs)
  | error after => rfl

theorem performAll_rescale (current : Int32) :
    performAll reply (performRescale seen.spec current) seen =
      Kubernetes.performRescale (calls reply job) seen.spec current seen := by
  unfold performRescale
  rw [performAll_cons]
  refine perform_bind fun connected spec => ?_
  rw [← spec]
  split
  next => rfl
  next =>
    split
    next =>
      rw [performAll_cons]
      refine perform_bind fun grown spec => ?_
      rw [← spec, performAll_singleton]
      rfl
    next =>
      rw [performAll_cons]
      refine perform_bind fun shrunk spec => ?_
      rw [← spec, performAll_singleton]
      rfl

theorem patch_eq :
    Kubernetes.patch (calls reply job) seen =
      (performAll reply [.apply .coordinatorSvc, .apply .workerSvc] seen >>=
        fun seen => Request.getWorkerSts.perform reply seen >>= fun seen =>
          performAll reply (if seen.workerSts ≠ seen.spec then
            performRescale seen.spec seen.workerSts else []) seen >>=
          performAll reply [.apply .coordinatorSts, .apply .workerSts,
            .patchStatus job.reported]) := by
  have rescales (seen : Kubernetes.Cluster) :
      performAll reply (if seen.workerSts ≠ seen.spec then
        performRescale seen.spec seen.workerSts else []) seen =
      if seen.workerSts ≠ seen.spec then
        Kubernetes.performRescale (calls reply job) seen.spec seen.workerSts seen
      else .ok seen := by
    split
    next => exact performAll_rescale _
    next => rfl
  have ends : performAll reply [.apply .coordinatorSts, .apply .workerSts,
      .patchStatus job.reported] = fun seen =>
        (Request.apply .coordinatorSts).perform reply seen >>= fun seen =>
          (Request.apply .workerSts).perform reply seen >>=
            (Request.patchStatus job.reported).perform reply := by
    funext seen
    have last : performAll reply [.patchStatus job.reported] =
        (Request.patchStatus job.reported).perform reply :=
      funext fun _ => performAll_singleton
    rw [performAll_cons, ← last]
    rfl
  simp only [performAll_cons, performAll_nil, rescales, ends, bind_assoc]
  unfold Kubernetes.patch
  refine bind_congr fun seen => ?_
  refine bind_congr fun seen => ?_
  refine bind_congr fun seen => ?_
  split
  · refine bind_congr fun seen => ?_
    rfl
  · rfl

theorem Brings.all {control : Control} {requests : List Request}
    (views : Views control.cluster name job seen)
    (fixed : ∀ request ∈ requests, request.isFixed = true)
    (isPass : control.passes name = Pass.continue job (some requests)) :
    Brings reply name job control (performAll reply requests seen) := by
  have ends : performAll reply requests seen =
      performAll reply requests seen >>= pure := (bind_pure _).symm
  have isPass : control.passes name =
      Pass.continue job (some (requests ++ [])) := by
    rw [List.append_nil, isPass]
  rw [ends]
  exact Brings.fixed views fixed isPass fun next after viewed idle =>
    (Brings.over idle viewed).1

theorem Brings.patch {control : Control}
    (views : Views control.cluster name job seen)
    (isPass : control.passes name =
      Pass.continue job (some (Lifecycle.patch job))) :
    Brings reply name job control
      (Kubernetes.patch (calls reply job) seen) := by
  have plans : Lifecycle.patch job =
      [.apply .coordinatorSvc, .apply .workerSvc] ++ .getWorkerSts ::
        [.apply .coordinatorSts, .apply .workerSts,
          .patchStatus job.reported] := rfl
  rw [plans] at isPass
  rw [patch_eq]
  refine Brings.fixed views (by simp [Request.isFixed, Request.isPlain]) isPass
    fun control seen views isPass => ?_
  refine Brings.call views rfl (by simp) isPass fun control seen views isPass => ?_
  have isPass : control.passes name = Pass.continue job (some
      ((if seen.workerSts ≠ seen.spec then
        performRescale seen.spec seen.workerSts else []) ++
          [.apply .coordinatorSts, .apply .workerSts,
            .patchStatus job.reported])) := by
    rw [isPass]
    simp only [Request.proceed, if_true, views.scale, views.spec]
    split <;> rfl
  have fixed : ∀ request ∈ (if seen.workerSts ≠ seen.spec then
      performRescale seen.spec seen.workerSts else []),
      request.isFixed = true := by
    unfold performRescale
    split
    · split
      · simp [Request.isFixed, Request.isPlain]
      · split <;> simp [Request.isFixed, Request.isPlain]
    · simp
  exact Brings.fixed views fixed isPass fun control seen views isPass =>
    Brings.all views (by simp [Request.isFixed, Request.isPlain]) isPass

end

/-- The worker StatefulSet and the scale of the job are after a pass what the
rescaling of the job makes of them, whatever becomes of each call. -/
theorem reconcile_rescales {control : Control} {name : String} {job : MalstromJob}
    {seen : Kubernetes.Cluster} (reply : Request → Reply)
    (idle : control.passes name = none) (stays : job.deletionTimestamp = false)
    (listed : job.finalizers ≠ [])
    (views : Views control.cluster name job seen) :
    ∃ later, Ends reply name (control.step (.reconcile name job)) later ∧
      Views later.cluster name job (reconcile (calls reply job) seen).1 := by
  have started : control.step (.reconcile name job) =
      control.setPass name (some ⟨job, [.compareWithCluster]⟩) := by
    have compares : makeDecision job = [.compareWithCluster] := by
      simp [makeDecision, stays, listed]
    simp only [Control.step, idle, compares, Pass.continue]
  have isPass : (control.step (.reconcile name job)).passes name =
      some ⟨job, [.compareWithCluster]⟩ := by
    simp [started, Control.setPass]
  have served : Request.serve control.cluster name job .compareWithCluster =
      .ok control.cluster := if_pos views.present
  have compared : (control.step (.reconcile name job)).step
      (.call name (reply .compareWithCluster)) = control.setPass name
        (if reply .compareWithCluster = .served ∧
            seen.workerSts ≠ seen.spec then
          Pass.continue job (some (Lifecycle.patch job)) else none) := by
    have differs : control.cluster.scale name ≠ job.replicas ↔
        seen.workerSts ≠ seen.spec := by
      rw [views.scale, views.spec]
    rw [started]
    simp only [Control.step, Control.call, Control.setPass,
      Function.update_self, served, Function.update_idem]
    cases reply .compareWithCluster with
    | served =>
        simp only [Reply.answer, Request.proceed, differs, if_true, true_and]
        split <;> rfl
    | refused | unreachable | lost => rfl
  have goesOn {later : Control} (ends : Ends reply name
      (control.setPass name (if reply .compareWithCluster = .served ∧
        seen.workerSts ≠ seen.spec then
          Pass.continue job (some (Lifecycle.patch job)) else none)) later) :
      Ends reply name (control.step (.reconcile name job)) later :=
    .call isPass (compared ▸ ends)
  have compares : (calls reply job).compare = .succeeds ↔
      reply .compareWithCluster = .served := by
    cases replied : reply .compareWithCluster <;>
      simp [calls, replied, Reply.outcome]
  by_cases patches : reply .compareWithCluster = .served ∧
      seen.workerSts ≠ seen.spec
  · have brings : Brings reply name job
        (control.setPass name (Pass.continue job (some (Lifecycle.patch job))))
        (Kubernetes.patch (calls reply job) seen) := by
      refine Brings.patch ⟨views.isJob, views.present, views.spec, views.scale⟩ ?_
      simp [Control.setPass]
    obtain ⟨later, ends, after, viewed, result⟩ := brings
    rw [if_pos patches] at goesOn
    refine ⟨later, goesOn ends, ?_⟩
    rw [reconcile_patch (compares.mpr patches.1) patches.2]
    rcases result with ok | error
    · rwa [ok]
    · rwa [error]
  · rw [if_neg patches] at goesOn
    refine ⟨control.setPass name none, goesOn (.over ?_), ?_⟩
    · simp [Control.setPass]
    · have nothing : (calls reply job).compare ≠ .succeeds ∨
          seen.workerSts = seen.spec := by
        rcases not_and_or.mp patches with failed | same
        · exact .inl fun succeeds => failed (compares.mp succeeds)
        · exact .inr (not_not.mp same)
      rw [reconcile_idle nothing]
      exact ⟨views.isJob, views.present, views.spec, views.scale⟩

end Malstrom.Kubernetes.Lifecycle
