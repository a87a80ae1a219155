import Malstrom.Kubernetes.Requests

namespace Malstrom.Kubernetes.Lifecycle

open Data

/-! What the finalizer is for: a job which is gone has left no resources
behind. -/

/-! ### What belongs to a job -/

def MalstromJob.lease (job : MalstromJob) : Bool × List String :=
  (job.deletionTimestamp, job.finalizers)

def Cluster.lease (cluster : Cluster) (name : String) :
    Option (Bool × List String) :=
  (cluster.jobs name).map MalstromJob.lease

inductive Stage (cluster : Cluster) (name : String) : List Request → Prop
  | deletes {rest : List Resource} {finalizers : List String}
      (deleting : cluster.lease name = some (true, finalizers))
      (gone : ∀ resource ∉ rest, cluster.has name resource = false) :
      Stage cluster name (rest.map .delete ++ [.deleteFinalizer])
  | puts {rest : List Resource} {status : MalstromJobStatus}
      (made : ∀ resource ∉ rest, cluster.has name resource = true) :
      Stage cluster name (rest.map .apply ++ [.patchStatus status, .addFinalizer])
  | adds (made : ∀ resource, cluster.has name resource = true) :
      Stage cluster name [.addFinalizer]
  | plain {todo : List Request}
      (isPlain : ∀ request ∈ todo, request.isPlain = true) :
      Stage cluster name todo

/-- A job has its resources to itself, and all of them while it has the
operator's finalizer and is not to be deleted. -/
structure Control.Owned (control : Control) (name : String) : Prop where
  gone : control.cluster.lease name = none → control.Clear name
  whole : ∀ finalizers, control.cluster.lease name = some (false, finalizers) →
    finalizer ∈ finalizers → ∀ resource, control.cluster.has name resource = true
  pass : ∀ pass, control.passes name = some pass →
    Stage control.cluster name pass.todo

section

variable {cluster next : Cluster} {name : String} {todo : List Request}

/-- A stage only depends on the resources and on the job's being deleted. -/
theorem Stage.congr (stage : Stage cluster name todo)
    (lease : ∀ finalizers, cluster.lease name = some (true, finalizers) →
      ∃ finalizers, next.lease name = some (true, finalizers))
    (has : ∀ resource, next.has name resource = cluster.has name resource) :
    Stage next name todo := by
  cases stage with
  | deletes deleting gone =>
      obtain ⟨finalizers, deleting⟩ := lease _ deleting
      exact .deletes deleting fun resource done =>
        (has resource).trans (gone resource done)
  | puts made =>
      exact .puts fun resource done => (has resource).trans (made resource done)
  | adds made => exact .adds fun resource => (has resource).trans (made resource)
  | plain isPlain => exact .plain isPlain

theorem Stage.decides {job : MalstromJob}
    (deleting : job.deletionTimestamp = true →
      ∃ finalizers, cluster.lease name = some (true, finalizers)) :
    Stage cluster name (makeDecision job) := by
  have every (resource : Resource) : resource ∈ allResourceSpecs := by
    cases resource <;> simp [allResourceSpecs]
  unfold makeDecision
  split
  next isDeleted =>
    obtain ⟨finalizers, deleting⟩ := deleting isDeleted
    exact .deletes deleting fun resource missing =>
      absurd (every resource) missing
  next =>
    split
    next =>
      exact .puts fun resource missing => absurd (every resource) missing
    next => exact .plain (by simp [Request.isPlain])

end

namespace Control

variable {control next : Control} {name foreign : String}

theorem Owned.congr (owned : control.Owned name)
    (keeps : Cluster.Keeps control.cluster next.cluster name)
    (passes : next.passes name = control.passes name) : next.Owned name := by
  have lease : next.cluster.lease name = control.cluster.lease name := by
    rw [Cluster.lease, keeps.job, Cluster.lease]
  constructor
  · intro isGone
    obtain ⟨idle, empty⟩ := owned.gone (lease ▸ isGone)
    exact ⟨passes.trans idle, fun resource => (keeps.has resource).trans
      (empty resource)⟩
  · intro finalizers isJob listed resource
    rw [keeps.has, owned.whole finalizers (lease ▸ isJob) listed resource]
  · intro pass isPass
    exact (owned.pass pass (passes ▸ isPass)).congr
      (fun finalizers deleting => ⟨finalizers, lease.trans deleting⟩) keeps.has

/-! One call of a pass. -/

section

variable {cluster : Cluster} {job : MalstromJob} {reply : Reply}
  {request : Request} {rest : List Request} {resource : Resource}
  {next : Cluster} {answer : Answer}

theorem proceed_ok {left : List Request}
    (minds : ∀ resource, request ≠ .delete resource)
    (compares : request ≠ .compareWithCluster)
    (proceeds : request.proceed cluster name job answer rest = some left) :
    answer = .ok := by
  by_contra failed
  cases request <;> simp [Request.proceed, failed] at proceeds
  · exact compares rfl
  · exact minds _ rfl

/-- What holds of all plain requests and of the rest of a pass goes on holding
of what is left after a plain request. -/
theorem proceed_forall {left : List Request} (holds : Request → Prop)
    (ofPlain : ∀ request : Request, request.isPlain = true → holds request)
    (plain : request.isPlain = true) (restHolds : ∀ request ∈ rest, holds request)
    (proceeds : request.proceed cluster name job answer rest = some left) :
    ∀ request ∈ left, holds request := by
  have patchPlain : ∀ request ∈ Lifecycle.patch job, request.isPlain = true := by
    simp [Lifecycle.patch, Request.isPlain]
  cases request with
  | compareWithCluster =>
      simp only [Request.proceed, DecisionAction.requests] at proceeds
      split at proceeds
      · split at proceeds
        · obtain rfl := Option.some.inj proceeds
          exact fun request member => ofPlain _ (patchPlain request member)
        · simp [← Option.some.inj proceeds]
      · simp [← Option.some.inj proceeds]
  | getWorkerSts =>
      simp only [Request.proceed] at proceeds
      split at proceeds
      · split at proceeds
        · rw [← Option.some.inj proceeds]
          intro request member
          rcases List.mem_append.mp member with rescales | later
          · exact ofPlain _ (performRescale_plain request rescales).1
          · exact restHolds request later
        · exact Option.some.inj proceeds ▸ restHolds
      · cases proceeds
  | apply | connect | scaleWorkerSts | rescale | patchStatus =>
      simp only [Request.proceed] at proceeds
      split at proceeds
      · exact Option.some.inj proceeds ▸ restHolds
      · cases proceeds
  | addFinalizer => cases plain
  | delete => cases plain
  | deleteFinalizer => cases plain

theorem answer_plain (plain : request.isPlain = true)
    (isAnswer : reply.answer cluster (request.serve cluster name job) =
      (next, answer)) :
    next.lease = cluster.lease ∧
      (∀ other, cluster.has name other = true → next.has name other = true) ∧
      (answer = .ok → ∀ resource, request = .apply resource →
        next.has name resource = true) := by
  have after := answer_cases reply cluster (request.serve cluster name job)
  rw [isAnswer] at after
  rcases after with served | ⟨same, failed⟩
  · obtain ⟨jobs, kept, -, made, -⟩ := serve_plain plain served
    refine ⟨funext fun other => ?_, kept name, fun _ => made⟩
    rw [Cluster.lease, jobs, Cluster.lease]
  · obtain rfl : next = cluster := same
    exact ⟨rfl, fun _ present => present, fun ok => absurd ok failed⟩

/-- A deletion which goes on has seen the resource go. -/
theorem answer_delete
    (careful : reply = .unreachable → cluster.has name resource = false)
    (isAnswer : reply.answer cluster
      (Request.serve cluster name job (.delete resource)) = (next, answer)) :
    next.lease = cluster.lease ∧
      (∀ other, cluster.has name other = false →
        next.has name other = false) ∧
      (answer ≠ .api .other → next.has name resource = false) := by
  have removes : (cluster.remove name resource).lease = cluster.lease ∧
      (∀ other, cluster.has name other = false →
        (cluster.remove name resource).has name other = false) ∧
      (cluster.remove name resource).has name resource = false := by
    refine ⟨?_, fun other absent => ?_, ?_⟩
    · unfold Cluster.remove
      split <;> rfl
    · rw [Cluster.has_remove, absent, ite_self]
    · rw [Cluster.has_remove, if_pos ⟨rfl, rfl⟩]
  cases present : cluster.has name resource <;> cases reply <;>
    simp_all [Request.serve, Reply.answer]

theorem answer_finalizers {finalizers : List String}
    (isAnswer : reply.answer cluster (setFinalizers cluster name finalizers) =
      (next, answer)) :
    (∀ other, next.has name other = cluster.has name other) ∧
      (next.lease name = cluster.lease name ∨
        ∃ deleting before, cluster.lease name = some (deleting, before) ∧
          next.lease name =
            if deleting = true ∧ finalizers = [] then none
            else some (deleting, finalizers)) := by
  have after := answer_cases reply cluster (setFinalizers cluster name finalizers)
  rw [isAnswer] at after
  rcases after with served | ⟨same, -⟩
  · obtain ⟨current, isCurrent, rfl⟩ := setFinalizers_ok served
    refine ⟨fun _ => rfl, .inr ⟨current.deletionTimestamp, current.finalizers,
      by simp [Cluster.lease, isCurrent, MalstromJob.lease], ?_⟩⟩
    simp only [Cluster.lease, Cluster.setJob, Function.update_self]
    split <;> rfl
  · obtain rfl : next = cluster := same
    exact ⟨fun _ => rfl, .inl rfl⟩

end

theorem continue_some {job : MalstromJob} {todo : Option (List Request)}
    {pass : Pass} (isPass : Pass.continue job todo = some pass) :
    ∃ request rest, todo = some (request :: rest) ∧
      pass = ⟨job, request :: rest⟩ := by
  cases todo with
  | none => cases isPass
  | some requests =>
      cases requests with
      | nil => cases isPass
      | cons request rest => exact ⟨request, rest, rfl, (Option.some.inj isPass).symm⟩

theorem Owned.called {job : MalstromJob} {reply : Reply} {request : Request}
    {rest : List Request} {cluster : Cluster} {answer : Answer}
    (isAnswer : reply.answer control.cluster
      (request.serve control.cluster name job) = (cluster, answer))
    (gone : cluster.lease name = none → rest = [] ∧
      request = .deleteFinalizer ∧
        ∀ resource, cluster.has name resource = false)
    (whole : ∀ finalizers, cluster.lease name = some (false, finalizers) →
      finalizer ∈ finalizers → ∀ resource, cluster.has name resource = true)
    (stage : ∀ left, request.proceed cluster name job answer rest = some left →
      Stage cluster name left) :
    (control.call name reply ⟨job, request :: rest⟩).Owned name := by
  have called : control.call name reply ⟨job, request :: rest⟩ =
      Control.setPass ⟨cluster, control.passes⟩ name
        (Pass.continue job (request.proceed cluster name job answer rest)) := by
    simp only [Control.call, isAnswer]
  rw [called]
  constructor
  · intro isGone
    obtain ⟨rfl, rfl, empty⟩ := gone isGone
    refine ⟨?_, empty⟩
    simp only [setPass, Function.update_self, Request.proceed]
    split <;> rfl
  · exact whole
  · intro pass isPass
    simp only [setPass, Function.update_self] at isPass
    obtain ⟨next, later, left, rfl⟩ := continue_some isPass
    exact stage _ left

theorem Owned.kept {job : MalstromJob} {reply : Reply} {request : Request}
    {rest : List Request} {cluster : Cluster} {answer : Answer}
    (owned : control.Owned name) (present : control.cluster.lease name ≠ none)
    (isAnswer : reply.answer control.cluster
      (request.serve control.cluster name job) = (cluster, answer))
    (lease : cluster.lease = control.cluster.lease)
    (kept : ∀ finalizers, control.cluster.lease name =
        some (false, finalizers) → ∀ resource,
      control.cluster.has name resource = true →
        cluster.has name resource = true)
    (stage : ∀ left, request.proceed cluster name job answer rest = some left →
      Stage cluster name left) :
    (control.call name reply ⟨job, request :: rest⟩).Owned name := by
  refine Owned.called isAnswer (fun gone => ?_)
    (fun finalizers isJob listed resource => ?_) stage
  · rw [lease] at gone
    exact absurd gone present
  · rw [lease] at isJob
    exact kept finalizers isJob resource
      (owned.whole finalizers isJob listed resource)

theorem Owned.call {pass : Pass} {reply : Reply} (owned : control.Owned name)
    (isPass : control.passes name = some pass)
    (careful : ∀ resource ∈ pass.deletes?, reply = .unreachable →
      control.cluster.has name resource = false) :
    (control.call name reply pass).Owned name := by
  have present : control.cluster.lease name ≠ none := fun gone => by
    have idle := (owned.gone gone).1
    rw [isPass] at idle
    cases idle
  have stage := owned.pass pass isPass
  obtain ⟨job, todo⟩ := pass
  simp only at stage careful
  cases stage with
  | @plain todo isPlain =>
      cases todo with
      | nil =>
          refine ⟨fun gone => absurd gone present, owned.whole, ?_⟩
          simp [Control.call, Control.setPass]
      | cons request rest =>
          have plain := isPlain request List.mem_cons_self
          rcases isAnswer : reply.answer control.cluster
            (request.serve control.cluster name job) with ⟨cluster, answer⟩
          obtain ⟨lease, kept, -⟩ := answer_plain plain isAnswer
          refine owned.kept present isAnswer lease (fun _ _ => kept)
            fun left proceeds => .plain
              (proceed_forall _ (fun _ => id) plain ?_ proceeds)
          exact fun later member => isPlain later (.tail _ member)
  | @puts rest status made =>
      cases rest with
      | nil =>
          rcases isAnswer : reply.answer control.cluster
            (Request.serve control.cluster name job (.patchStatus status)) with
            ⟨cluster, answer⟩
          obtain ⟨lease, kept, -⟩ := answer_plain rfl isAnswer
          refine owned.kept present isAnswer lease (fun _ _ => kept)
            fun left proceeds => ?_
          have ok := proceed_ok (by simp) (by simp) proceeds
          obtain rfl : [Request.addFinalizer] = left := by
            simpa [Request.proceed, ok] using proceeds
          exact .adds fun resource => kept resource (made resource (by simp))
      | cons first rest =>
          rcases isAnswer : reply.answer control.cluster
            (Request.serve control.cluster name job (.apply first)) with
            ⟨cluster, answer⟩
          obtain ⟨lease, kept, applied⟩ := answer_plain rfl isAnswer
          refine owned.kept present isAnswer lease (fun _ _ => kept)
            fun left proceeds => ?_
          have ok := proceed_ok (by simp) (by simp) proceeds
          simp only [Request.proceed, ok, if_true] at proceeds
          obtain rfl := Option.some.inj proceeds
          refine .puts fun resource missing => ?_
          by_cases same : resource = first
          · exact same ▸ applied ok first rfl
          · exact kept resource (made resource (by simp [same, missing]))
  | adds made =>
      rcases isAnswer : reply.answer control.cluster
        (Request.serve control.cluster name job .addFinalizer) with
        ⟨cluster, answer⟩
      obtain ⟨has, lease⟩ := answer_finalizers isAnswer
      refine Owned.called isAnswer (fun gone => ?_)
        (fun finalizers _ _ resource => (has resource).trans (made resource))
        fun left proceeds => ?_
      · rcases lease with same | ⟨deleting, before, -, after⟩
        · exact absurd (same.symm.trans gone) present
        · simp [after] at gone
      · have ok := proceed_ok (by simp) (by simp) proceeds
        obtain rfl : [] = left := by simpa [Request.proceed, ok] using proceeds
        exact .plain (by simp)
  | @deletes rest finalizers deleting gone =>
      cases rest with
      | nil =>
          rcases isAnswer : reply.answer control.cluster
            (Request.serve control.cluster name job .deleteFinalizer) with
            ⟨cluster, answer⟩
          obtain ⟨has, lease⟩ := answer_finalizers isAnswer
          refine Owned.called isAnswer (fun _ => ⟨rfl, rfl, fun resource =>
            (has resource).trans (gone resource (by simp))⟩)
            (fun left isJob => ?_) fun left proceeds => ?_
          · rcases lease with same | ⟨stays, before, isLease, after⟩
            · rw [same, deleting] at isJob
              cases isJob
            · obtain ⟨rfl, -⟩ : true = stays ∧ _ := by
                simpa [deleting] using isLease
              simp [after] at isJob
          · have ok := proceed_ok (by simp) (by simp) proceeds
            obtain rfl : [] = left := by
              simpa [Request.proceed, ok] using proceeds
            exact .plain (by simp)
      | cons first rest =>
          rcases isAnswer : reply.answer control.cluster
            (Request.serve control.cluster name job (.delete first)) with
            ⟨cluster, answer⟩
          obtain ⟨lease, kept, removed⟩ :=
            answer_delete (careful first rfl) isAnswer
          refine owned.kept present isAnswer lease (fun before isJob => ?_)
            fun left proceeds => ?_
          · rw [deleting] at isJob
            cases isJob
          · simp only [Request.proceed] at proceeds
            split at proceeds
            next => cases proceeds
            next goesOn =>
              obtain rfl := Option.some.inj proceeds
              refine .deletes (lease ▸ deleting) fun resource done => ?_
              by_cases same : resource = first
              · exact same ▸ removed goesOn
              · exact kept resource (gone resource (by simp [same, done]))

/-! Every event. -/

theorem Owned.edited {job : MalstromJob} {replicas : Int32}
    {finalizers : List String} (owned : control.Owned name)
    (isJob : control.cluster.jobs name = some job)
    (permitted : (finalizer ∈ finalizers ↔ finalizer ∈ job.finalizers) ∧
      (job.deletionTimestamp = true → control.Held name finalizers)) :
    Owned { control with
      cluster := (control.cluster.setJob name
        (some { job with replicas := replicas })).setJob name
          (if job.deletionTimestamp = true ∧ finalizers = [] then none
          else some { job with replicas := replicas, finalizers := finalizers })
      } name := by
  obtain ⟨listed, held⟩ := permitted
  have before : control.cluster.lease name =
      some (job.deletionTimestamp, job.finalizers) := by
    simp [Cluster.lease, isJob, MalstromJob.lease]
  split
  next leaves =>
    obtain ⟨idle, empty⟩ := held leaves.1 leaves.2
    refine ⟨fun _ => ⟨idle, empty⟩, fun left isLeft => ?_, ?_⟩
    · simp [Cluster.lease, Cluster.setJob] at isLeft
    · simp [idle]
  next stays =>
    have after : ((control.cluster.setJob name (some
        { job with replicas := replicas })).setJob name (some
          { job with replicas := replicas, finalizers := finalizers })).lease
        name = some (job.deletionTimestamp, finalizers) := by
      simp [Cluster.lease, Cluster.setJob, MalstromJob.lease]
    refine ⟨fun gone => ?_, fun left isLeft isListed => ?_,
      fun pass isPass => ?_⟩
    · rw [after] at gone
      cases gone
    · rw [after] at isLeft
      obtain ⟨alive, rfl⟩ := by simpa using isLeft
      exact owned.whole job.finalizers (alive ▸ before) (listed.mp isListed)
    · refine (owned.pass pass isPass).congr (fun left deleting => ?_) fun _ => rfl
      rw [before] at deleting
      obtain ⟨isDeleted, -⟩ := by simpa using deleting
      exact ⟨finalizers, isDeleted ▸ after⟩

theorem Owned.deleted {job : MalstromJob} (owned : control.Owned name)
    (held : control.Held name job.finalizers) :
    Owned { control with
      cluster := control.cluster.setJob name
        (if job.finalizers.isEmpty then none
        else some { job with deletionTimestamp := true }) } name := by
  split
  next free =>
    obtain ⟨idle, empty⟩ := held (List.isEmpty_iff.mp free)
    refine ⟨fun _ => ⟨idle, empty⟩, fun left isLeft => ?_, ?_⟩
    · simp [Cluster.lease, Cluster.setJob] at isLeft
    · simp [idle]
  next =>
    have after : (control.cluster.setJob name (some
        { job with deletionTimestamp := true })).lease name =
        some (true, job.finalizers) := by
      simp [Cluster.lease, Cluster.setJob, MalstromJob.lease]
    refine ⟨fun gone => ?_, fun left isLeft => ?_, fun pass isPass => ?_⟩
    · rw [after] at gone
      cases gone
    · rw [after] at isLeft
      cases isLeft
    · exact (owned.pass pass isPass).congr (fun _ _ => ⟨_, after⟩) fun _ => rfl

theorem Owned.reconciled {job : MalstromJob} (owned : control.Owned name)
    (permitted : control.allowed (.reconcile name job)) :
    (control.setPass name
      (Pass.continue job (some (makeDecision job)))).Owned name := by
  obtain ⟨current, isCurrent, seen⟩ := permitted
  have lease : control.cluster.lease name =
      some (current.deletionTimestamp, current.finalizers) := by
    simp [Cluster.lease, Option.mem_def.mp isCurrent, MalstromJob.lease]
  refine ⟨fun gone => ?_, owned.whole, fun pass isPass => ?_⟩
  · exact absurd (lease.symm.trans gone) (by simp)
  · simp only [Control.setPass, Function.update_self] at isPass
    have decides : Stage control.cluster name (makeDecision job) :=
      .decides fun isDeleted => ⟨_, seen isDeleted ▸ lease⟩
    obtain ⟨request, rest, decision, rfl⟩ := continue_some isPass
    exact Option.some.inj decision ▸ decides

theorem Owned.step {event : Event} (owned : control.Owned name)
    (permitted : control.allowed event) : (control.step event).Owned name := by
  cases about : event.about with
  | none =>
      cases event with
      | restart =>
          refine ⟨fun gone => ⟨rfl, (owned.gone gone).2⟩, owned.whole, ?_⟩
          simp [Control.step]
      | _ => cases about
  | some touched =>
      by_cases other : name ≠ touched
      · obtain ⟨keeps, passes⟩ := step_foreign about other
        exact owned.congr keeps passes
      obtain rfl := not_not.mp other
      cases event with
      | create created replicas finalizers =>
          obtain rfl := Option.some.inj about
          simp only [Control.step]
          split
          next absent =>
            have gone : control.cluster.lease created = none := by
              simp [Cluster.lease, absent]
            obtain ⟨idle, empty⟩ := owned.gone gone
            have lease : (control.cluster.setJob created (some
                { replicas := replicas, finalizers := finalizers })).lease
                  created = some (false, finalizers) := by
              simp [Cluster.lease, Cluster.setJob, MalstromJob.lease]
            refine ⟨fun gone => ?_, fun listed isJob isListed => ?_, ?_⟩
            · rw [lease] at gone
              cases gone
            · rw [lease] at isJob
              obtain ⟨-, rfl⟩ := by simpa using isJob
              exact absurd isListed permitted
            · simp [idle]
          next => exact owned
      | edit edited replicas finalizers =>
          obtain rfl := Option.some.inj about
          simp only [Control.step]
          split
          next => exact owned
          next job isJob =>
            split
            next => exact owned
            next cluster served =>
              obtain ⟨current, isCurrent, rfl⟩ := setFinalizers_ok served
              obtain rfl : { job with replicas := replicas } = current := by
                simpa [Cluster.setJob] using isCurrent
              exact owned.edited isJob (permitted job isJob)
      | delete deleted =>
          obtain rfl := Option.some.inj about
          simp only [Control.step]
          split
          next => exact owned
          next job isJob => exact owned.deleted (permitted job isJob)
      | reconcile reconciled job =>
          obtain rfl := Option.some.inj about
          simp only [Control.step]
          split
          next idle => exact owned.reconciled permitted
          next => exact owned
      | call called reply =>
          obtain rfl := Option.some.inj about
          simp only [Control.step]
          split
          next => exact owned
          next pass isPass => exact owned.call isPass (permitted pass isPass)
      | restart => cases about

theorem owned_initial (name : String) : Control.initial.Owned name where
  gone _ := ⟨rfl, fun resource => by cases resource <;> rfl⟩
  whole _ isJob := by cases isJob
  pass _ isPass := by cases isPass

theorem owned_reaches
    (run : Reaches Control.act Control.allowed Control.initial control)
    (name : String) : control.Owned name := by
  refine run.invariant (fun control => control.Owned name) (owned_initial name)
    fun state event next _ owned permitted stepped => ?_
  obtain rfl := Except.ok.inj stepped
  exact owned.step permitted

end Control

/-- Whatever calls of the operator fail, and however often it is restarted: a
job which is gone has left neither resources nor a pass behind, and a job which
has the operator's finalizer and is not to be deleted has all of its resources,
while the operator works on other jobs of the namespace at the same time. -/
theorem job_owns_resources {control : Control}
    (run : Reaches Control.act Control.allowed Control.initial control)
    (name : String) :
    (control.cluster.jobs name = none → control.Clear name) ∧
    ∀ job, control.cluster.jobs name = some job → finalizer ∈ job.finalizers →
      job.deletionTimestamp = false →
        ∀ resource, control.cluster.has name resource = true := by
  have owned := Control.owned_reaches run name
  refine ⟨fun gone => owned.gone (by simp [Cluster.lease, gone]), ?_⟩
  intro job isJob listed stays
  refine owned.whole job.finalizers ?_ listed
  simp [Cluster.lease, isJob, MalstromJob.lease, stays]

/-- The first job is made in spite of a restart, and removed in two goes; the
second one is on its way. -/
def twoJobs : List Event :=
  [.create "words" 2 [], .create "counts" 1 [],
    .reconcile "words" { replicas := 2 },
    .call "words" .served, .call "words" .lost, .restart,
    .reconcile "counts" { replicas := 1 },
    .reconcile "words" { replicas := 2 },
    .call "counts" .served, .call "words" .served, .call "counts" .served,
    .call "words" .served, .call "words" .served, .call "words" .served,
    .call "counts" .served, .call "words" .served, .call "counts" .served,
    .call "words" .lost, .delete "words",
    .call "counts" .served, .call "counts" .served,
    .reconcile "words" { replicas := 2, deletionTimestamp := true },
    .call "words" .served, .call "words" .lost, .call "words" .refused,
    .reconcile "words" { replicas := 2, deletionTimestamp := true },
    .call "words" .served, .call "words" .served, .call "words" .served,
    .call "words" .served, .call "words" .lost]

@[irreducible] def twoJobsControl : Control :=
  replay Control.act Control.initial twoJobs

theorem two_jobs_owned :
    (twoJobsControl.cluster.jobs "words" = none ∧
      twoJobsControl.Clear "words") ∧
    (twoJobsControl.cluster.jobs "counts" =
        some ⟨1, false, [finalizer]⟩ ∧
      ∀ resource, twoJobsControl.cluster.has "counts" resource = true) := by
  have run : Reaches Control.act Control.allowed Control.initial
      twoJobsControl := by
    unfold twoJobsControl
    exact Follows.reaches twoJobs .refl (by decide +kernel)
  have gone : twoJobsControl.cluster.jobs "words" = none := by decide +kernel
  have made : twoJobsControl.cluster.jobs "counts" =
      some ⟨1, false, [finalizer]⟩ := by decide +kernel
  exact ⟨⟨gone, (job_owns_resources run "words").1 gone⟩, made,
    (job_owns_resources run "counts").2 _ made List.mem_cons_self rfl⟩

end Malstrom.Kubernetes.Lifecycle
