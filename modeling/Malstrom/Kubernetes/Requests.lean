import Malstrom.Kubernetes.Lifecycle

namespace Malstrom.Kubernetes.Lifecycle

/-! What a request does to the job it is made for, and what it leaves alone. -/

/-! ### Names -/

theorem coordinator_ne_worker (one other : String) :
    one ++ "-coordinator" ≠ other ++ "-worker" := by
  intro same
  have reversed := congrArg (fun name => name.toList.reverse) same
  simp [String.toList_append] at reversed

/-- Two resources of one kind have the same name only if they are the same
resource of the same job. -/
theorem Resource.nameAny_inj {one other : Resource} {name foreign : String}
    (kind : one.isService = other.isService)
    (same : one.nameAny name = other.nameAny foreign) :
    one = other ∧ name = foreign := by
  have unlike := (coordinator_ne_worker foreign name).symm
  cases one <;> cases other <;>
    simp_all [Resource.isService, Resource.nameAny, coordinator_ne_worker]

namespace Cluster

variable {cluster : Cluster} {name foreign : String}
  {resource other : Resource}

theorem has_setService (kind : resource.isService = true) (present : Bool) :
    (cluster.setService (resource.nameAny name) present).has foreign other =
      if foreign = name ∧ other = resource then present
      else cluster.has foreign other := by
  unfold has setService
  cases isService : other.isService with
  | true =>
      simp only [if_true, Function.update_apply]
      congr 1
      refine propext ⟨fun same => ?_, fun ⟨rfl, rfl⟩ => rfl⟩
      obtain ⟨rfl, rfl⟩ := Resource.nameAny_inj (isService.trans kind.symm) same
      exact ⟨rfl, rfl⟩
  | false =>
      have different : other ≠ resource := by
        rintro rfl
        rw [kind] at isService
        cases isService
      simp [different]

theorem has_setStatefulSet (kind : resource.isService = false)
    (replicas : Option Int32) :
    (cluster.setStatefulSet (resource.nameAny name) replicas).has foreign other =
      if foreign = name ∧ other = resource then replicas.isSome
      else cluster.has foreign other := by
  unfold has setStatefulSet
  cases isService : other.isService with
  | true =>
      have different : other ≠ resource := by
        rintro rfl
        rw [kind] at isService
        cases isService
      simp [different]
  | false =>
      simp only [Bool.false_eq_true, if_false, Function.update_apply]
      rw [apply_ite Option.isSome]
      congr 1
      refine propext ⟨fun same => ?_, fun ⟨rfl, rfl⟩ => rfl⟩
      obtain ⟨rfl, rfl⟩ := Resource.nameAny_inj (isService.trans kind.symm) same
      exact ⟨rfl, rfl⟩

theorem has_remove :
    (cluster.remove name resource).has foreign other =
      if foreign = name ∧ other = resource then false
      else cluster.has foreign other := by
  unfold remove
  cases kind : resource.isService with
  | true => exact has_setService kind false
  | false => exact has_setStatefulSet kind none

@[simp] theorem has_setJob (job : Option MalstromJob) :
    (cluster.setJob name job).has foreign other = cluster.has foreign other :=
  rfl

theorem scale_setStatefulSet (kind : resource.isService = false)
    (replicas : Option Int32) :
    (cluster.setStatefulSet (resource.nameAny name) replicas).scale foreign =
      if foreign = name ∧ resource = .workerSts then replicas.getD 0
      else cluster.scale foreign := by
  have same : Resource.workerSts.nameAny foreign = resource.nameAny name ↔
      foreign = name ∧ resource = .workerSts := by
    refine ⟨fun same => ?_, fun ⟨rfl, rfl⟩ => rfl⟩
    have alike : Resource.workerSts.isService = resource.isService := kind.symm
    obtain ⟨rfl, rfl⟩ := Resource.nameAny_inj alike same
    exact ⟨rfl, rfl⟩
  simp only [scale, setStatefulSet, Function.update_apply, same]
  split <;> rfl

theorem scale_remove (different : foreign ≠ name) :
    (cluster.remove name resource).scale foreign = cluster.scale foreign := by
  unfold remove
  cases kind : resource.isService with
  | true => rfl
  | false =>
      rw [if_neg (by simp), scale_setStatefulSet kind,
        if_neg fun both => different both.1]

structure Keeps (cluster next : Cluster) (name : String) : Prop where
  job : next.jobs name = cluster.jobs name
  has : ∀ resource, next.has name resource = cluster.has name resource
  scale : next.scale name = cluster.scale name

theorem Keeps.refl : Keeps cluster cluster name :=
  ⟨rfl, fun _ => rfl, rfl⟩

theorem Keeps.setJob (different : foreign ≠ name) (job : Option MalstromJob) :
    Keeps cluster (cluster.setJob name job) foreign :=
  ⟨by simp [Cluster.setJob, different], fun _ => rfl, rfl⟩

end Cluster

/-! ### Served requests -/

/-- Requests which neither delete nor touch the finalizers. -/
def Request.isPlain : Request → Bool
  | .addFinalizer | .delete _ | .deleteFinalizer => false
  | _ => true

theorem performRescale_plain {desired current : Int32} :
    ∀ request ∈ performRescale desired current,
      request.isPlain = true ∧ request ≠ .compareWithCluster := by
  unfold performRescale
  split
  · simp [Request.isPlain]
  · split <;> simp [Request.isPlain]

section

variable {cluster next : Cluster} {name foreign : String} {job : MalstromJob}
  {request : Request} {resource other : Resource}

theorem applySts_ok {statefulSet : String} {replicas : Int32}
    (served : cluster.applySts statefulSet replicas = .ok next) :
    next = cluster.setStatefulSet statefulSet (some replicas) := by
  unfold Cluster.applySts at served
  split at served
  next => cases served
  next => exact (Except.ok.inj served).symm

theorem setFinalizers_ok {finalizers : List String}
    (served : setFinalizers cluster name finalizers = .ok next) :
    ∃ current, cluster.jobs name = some current ∧
      next = cluster.setJob name
        (if current.deletionTimestamp = true ∧ finalizers = [] then none
        else some { current with finalizers := finalizers }) := by
  unfold setFinalizers at served
  split at served
  next => cases served
  next current isCurrent =>
    refine ⟨current, isCurrent, ?_⟩
    split at served
    next deleting =>
      split at served
      next =>
        split at served
        next empty =>
          rw [if_pos ⟨deleting, List.isEmpty_iff.mp empty⟩]
          exact (Except.ok.inj served).symm
        next some =>
          rw [if_neg fun both => some (List.isEmpty_iff.mpr both.2)]
          exact (Except.ok.inj served).symm
      next => cases served
    next stays =>
      rw [if_neg fun both => stays both.1]
      exact (Except.ok.inj served).symm

theorem serve_plain (plain : request.isPlain = true)
    (served : request.serve cluster name job = .ok next) :
    next.jobs = cluster.jobs ∧
      (∀ foreign other, cluster.has foreign other = true →
        next.has foreign other = true) ∧
      (∀ foreign ≠ name, ∀ other,
        next.has foreign other = cluster.has foreign other) ∧
      (∀ resource, request = .apply resource →
        next.has name resource = true) ∧
      ∀ foreign, next.scale foreign =
        if foreign = name ∧
            (request = .apply .workerSts ∨ request = .scaleWorkerSts) then
          job.replicas
        else cluster.scale foreign := by
  cases request with
  | addFinalizer => cases plain
  | delete => cases plain
  | deleteFinalizer => cases plain
  | compareWithCluster | getWorkerSts | patchStatus =>
      simp only [Request.serve] at served
      split at served
      next =>
        obtain rfl := Except.ok.inj served
        exact ⟨rfl, fun _ _ present => present, fun _ _ _ => rfl, by simp,
          by simp⟩
      next => cases served
  | connect | rescale =>
      obtain rfl := Except.ok.inj served
      exact ⟨rfl, fun _ _ present => present, fun _ _ _ => rfl, by simp, by simp⟩
  | scaleWorkerSts =>
      simp only [Request.serve] at served
      split at served
      next =>
        obtain rfl := applySts_ok served
        refine ⟨rfl, fun foreign other present => ?_,
          fun foreign different other => ?_, by simp, fun foreign => ?_⟩
        · rw [Cluster.has_setStatefulSet rfl]
          split <;> simp [present]
        · rw [Cluster.has_setStatefulSet rfl, if_neg (by simp [different])]
        · rw [Cluster.scale_setStatefulSet rfl]
          simp
      next => cases served
  | apply resource =>
      have effect : next.jobs = cluster.jobs ∧
          (∀ foreign other, next.has foreign other =
            if foreign = name ∧ other = resource then true
            else cluster.has foreign other) ∧
          ∀ foreign, next.scale foreign =
            if foreign = name ∧ resource = .workerSts then job.replicas
            else cluster.scale foreign := by
        cases resource with
        | coordinatorSvc | workerSvc =>
            obtain rfl := Except.ok.inj served
            refine ⟨rfl, fun _ _ => Cluster.has_setService rfl true, by
              simp [Cluster.scale, Cluster.setService]⟩
        | coordinatorSts =>
            obtain rfl := applySts_ok served
            refine ⟨rfl, fun _ _ => Cluster.has_setStatefulSet rfl _,
              fun foreign => ?_⟩
            rw [Cluster.scale_setStatefulSet rfl]
            simp
        | workerSts =>
            obtain rfl := applySts_ok served
            exact ⟨rfl, fun _ _ => Cluster.has_setStatefulSet rfl _,
              fun _ => Cluster.scale_setStatefulSet rfl _⟩
      obtain ⟨jobs, has, scale⟩ := effect
      refine ⟨jobs, fun foreign other present => ?_,
        fun foreign different other => ?_, ?_, fun foreign => ?_⟩
      · rw [has, present, ite_self]
      · rw [has, if_neg (by simp [different])]
      · rintro _ ⟨⟩
        rw [has, if_pos ⟨rfl, rfl⟩]
      · rw [scale]
        simp

theorem serve_ok (plain : request.isPlain = true) (valid : 0 ≤ job.replicas)
    (isJob : (cluster.jobs name).isSome = true)
    (present : (∀ resource, request ≠ .apply resource) →
      cluster.has name .workerSts = true) :
    ∃ next, request.serve cluster name job = .ok next := by
  have apply (statefulSet : String) (replicas : Int32) (valid : 0 ≤ replicas) :
      ∃ next, cluster.applySts statefulSet replicas = .ok next := by
    unfold Cluster.applySts
    rw [if_neg (Int32.not_lt.mpr valid)]
    exact ⟨_, rfl⟩
  cases request with
  | addFinalizer => cases plain
  | delete => cases plain
  | deleteFinalizer => cases plain
  | compareWithCluster | getWorkerSts =>
      exact ⟨cluster, if_pos (present (by simp))⟩
  | connect | rescale => exact ⟨cluster, rfl⟩
  | patchStatus => exact ⟨cluster, if_pos isJob⟩
  | scaleWorkerSts =>
      obtain ⟨next, applied⟩ := apply (Resource.workerSts.nameAny name) _ valid
      exact ⟨next, (if_pos (present (by simp))).trans applied⟩
  | apply resource =>
      cases resource with
      | coordinatorSvc | workerSvc => exact ⟨_, rfl⟩
      | coordinatorSts => exact apply _ 1 (by decide)
      | workerSts => exact apply _ _ valid

theorem serve_foreign (served : request.serve cluster name job = .ok next)
    (different : foreign ≠ name) : Cluster.Keeps cluster next foreign := by
  have finalized {finalizers : List String}
      (served : setFinalizers cluster name finalizers = .ok next) :
      Cluster.Keeps cluster next foreign := by
    obtain ⟨current, -, rfl⟩ := setFinalizers_ok served
    exact .setJob different _
  cases plain : request.isPlain with
  | true =>
      obtain ⟨jobs, -, others, -, scale⟩ := serve_plain plain served
      exact ⟨congrFun jobs foreign, others foreign different, by
        rw [scale, if_neg fun both => different both.1]⟩
  | false =>
      cases request with
      | addFinalizer => exact finalized served
      | deleteFinalizer => exact finalized served
      | delete resource =>
          simp only [Request.serve] at served
          split at served
          next =>
            obtain rfl := Except.ok.inj served
            refine ⟨?_, fun other => ?_, Cluster.scale_remove different⟩
            · unfold Cluster.remove
              split <;> rfl
            · rw [Cluster.has_remove, if_neg (by simp [different])]
          next => cases served
      | _ => cases plain

end

theorem answer_cases (reply : Reply) (cluster : Cluster)
    (result : Except Refusal Cluster) :
    result = .ok (reply.answer cluster result).1 ∨
      (reply.answer cluster result).1 = cluster ∧
        (reply.answer cluster result).2 ≠ .ok := by
  cases reply <;> cases result <;> simp [Reply.answer]

/-! ### Other jobs -/

def Event.about : Event → Option String
  | .create name _ _ | .edit name _ _ | .delete name | .reconcile name _
  | .call name _ => some name
  | .restart => none

namespace Control

variable {control : Control} {name foreign : String}

theorem call_foreign (different : foreign ≠ name) (reply : Reply) (pass : Pass) :
    Cluster.Keeps control.cluster (control.call name reply pass).cluster foreign ∧
      (control.call name reply pass).passes foreign = control.passes foreign := by
  unfold call
  split
  next => exact ⟨.refl, by simp [setPass, different]⟩
  next request rest isTodo =>
    simp only [setPass, Function.update_of_ne different, and_true]
    rcases answer_cases reply control.cluster
      (request.serve control.cluster name pass.job) with served | ⟨same, -⟩
    · exact serve_foreign served different
    · rw [same]
      exact .refl

/-- What happens to one job does not concern another one. -/
theorem step_foreign {event : Event} (about : event.about = some name)
    (different : foreign ≠ name) :
    Cluster.Keeps control.cluster (control.step event).cluster foreign ∧
      (control.step event).passes foreign = control.passes foreign := by
  cases event with
  | create created replicas finalizers =>
      obtain rfl := Option.some.inj about
      simp only [step]
      split
      next => exact ⟨.setJob different _, rfl⟩
      next => exact ⟨.refl, rfl⟩
  | edit edited replicas finalizers =>
      obtain rfl := Option.some.inj about
      simp only [step]
      split
      next => exact ⟨.refl, rfl⟩
      next job isJob =>
        split
        next => exact ⟨.refl, rfl⟩
        next cluster served =>
          obtain ⟨current, -, rfl⟩ := setFinalizers_ok served
          exact ⟨⟨by simp [Cluster.setJob, different], fun _ => rfl, rfl⟩, rfl⟩
  | delete deleted =>
      obtain rfl := Option.some.inj about
      simp only [step]
      split
      next => exact ⟨.refl, rfl⟩
      next => exact ⟨.setJob different _, rfl⟩
  | reconcile reconciled job =>
      obtain rfl := Option.some.inj about
      simp only [step]
      split
      next => exact ⟨.refl, by simp [setPass, different]⟩
      next => exact ⟨.refl, rfl⟩
  | call called reply =>
      obtain rfl := Option.some.inj about
      simp only [step]
      split
      next => exact ⟨.refl, rfl⟩
      next pass isPass => exact call_foreign different reply pass
  | restart => cases about

end Control

end Malstrom.Kubernetes.Lifecycle
