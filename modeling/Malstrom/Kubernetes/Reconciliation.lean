import Malstrom.Kubernetes.Finalizer

namespace Malstrom.Kubernetes.Lifecycle

open Data

/-! What passes bring about, and what none of them ever does. -/

/-! ### Passes come to an end -/

def Request.weight : Request → Nat
  | .compareWithCluster => 10
  | .getWorkerSts => 4
  | _ => 1

def weight : List Request → Nat
  | [] => 0
  | request :: rest => request.weight + weight rest

@[simp] theorem weight_nil : weight [] = 0 := rfl

@[simp] theorem weight_cons (request : Request) (rest : List Request) :
    weight (request :: rest) = request.weight + weight rest := rfl

@[simp] theorem weight_append (first second : List Request) :
    weight (first ++ second) = weight first + weight second := by
  induction first with
  | nil => simp
  | cons request rest ih => simp [ih, Nat.add_assoc]

theorem Request.weight_pos (request : Request) : 0 < request.weight := by
  cases request <;> simp [Request.weight]

theorem weight_performRescale (desired current : Int32) :
    weight (performRescale desired current) ≤ 3 := by
  unfold performRescale
  split
  · simp [Request.weight]
  · split <;> simp [Request.weight]

theorem makeDecision_ne_nil (job : MalstromJob) : makeDecision job ≠ [] := by
  unfold makeDecision
  split
  · simp [DecisionAction.requests]
  · split <;> simp [DecisionAction.requests]

theorem weight_makeDecision (job : MalstromJob) :
    weight (makeDecision job) ≤ 10 := by
  unfold makeDecision
  split
  · simp [DecisionAction.requests, delete, allResourceSpecs, Request.weight]
  · split
    · simp [DecisionAction.requests, create, allResourceSpecs, Request.weight]
    · simp [Request.weight]

/-- Whatever comes of a call, there is less to do after it. -/
theorem proceed_weight {cluster : Cluster} {name : String} {job : MalstromJob}
    {answer : Answer} {request : Request} {rest left : List Request}
    (proceeds : request.proceed cluster name job answer rest = some left) :
    weight left < weight (request :: rest) := by
  cases request with
  | compareWithCluster =>
      have patches : weight (DecisionAction.patch.requests job) < 10 := by
        simp [DecisionAction.requests, patch, Request.weight]
      simp only [Request.proceed, DecisionAction.requests] at proceeds patches
      simp only [weight_cons, Request.weight]
      split at proceeds
      · split at proceeds
        · rw [← Option.some.inj proceeds]
          omega
        · rw [← Option.some.inj proceeds, weight_nil]
          omega
      · rw [← Option.some.inj proceeds, weight_nil]
        omega
  | getWorkerSts =>
      have rescales := weight_performRescale job.replicas (cluster.scale name)
      simp only [Request.proceed] at proceeds
      simp only [weight_cons, Request.weight]
      split at proceeds
      · split at proceeds
        · rw [← Option.some.inj proceeds, weight_append]
          omega
        · rw [← Option.some.inj proceeds]
          omega
      · cases proceeds
  | delete resource =>
      simp only [Request.proceed] at proceeds
      split at proceeds
      next => cases proceeds
      next =>
        rw [← Option.some.inj proceeds, weight_cons]
        exact Nat.lt_add_of_pos_left (Request.weight_pos _)
  | apply | connect | scaleWorkerSts | rescale | patchStatus | addFinalizer
  | deleteFinalizer =>
      simp only [Request.proceed] at proceeds
      split at proceeds
      next =>
        rw [← Option.some.inj proceeds, weight_cons]
        exact Nat.lt_add_of_pos_left (Request.weight_pos _)
      next => cases proceeds

namespace Control

variable {control next : Control} {name : String}

/-- A pass for the job makes no more than so many calls. -/
def Brief (control : Control) (name : String) (calls : Nat) : Prop :=
  ∀ pass, control.passes name = some pass →
    pass.todo ≠ [] ∧ weight pass.todo ≤ calls

theorem Brief.idle (idle : control.passes name = none) (calls : Nat) :
    control.Brief name calls := by
  intro pass isPass
  rw [idle] at isPass
  cases isPass

theorem Brief.call {calls : Nat} (brief : control.Brief name (calls + 1))
    (reply : Reply) : (control.step (.call name reply)).Brief name calls := by
  intro later isLater
  simp only [step] at isLater
  split at isLater
  next idle => rw [idle] at isLater; cases isLater
  next pass isPass =>
    obtain ⟨busy, before⟩ := brief pass isPass
    obtain ⟨job, todo⟩ := pass
    cases todo with
    | nil => exact absurd rfl busy
    | cons request rest =>
        simp only [Control.call, setPass, Function.update_self] at isLater
        obtain ⟨first, others, proceeds, rfl⟩ := continue_some isLater
        have less := proceed_weight proceeds
        exact ⟨by simp, Nat.le_of_lt_succ (Nat.lt_of_lt_of_le less before)⟩

theorem Brief.step {event : Event} (brief : control.Brief name 10) :
    (control.step event).Brief name 10 := by
  cases about : event.about with
  | none =>
      cases event with
      | restart => exact .idle rfl _
      | _ => cases about
  | some touched =>
      by_cases other : name ≠ touched
      · obtain ⟨-, passes⟩ := step_foreign about other
        exact fun pass isPass => brief pass (passes ▸ isPass)
      obtain rfl := not_not.mp other
      cases event with
      | create created replicas finalizers =>
          simp only [Control.step]
          split <;> exact brief
      | edit edited replicas finalizers =>
          simp only [Control.step]
          split
          next => exact brief
          next => split <;> exact brief
      | delete deleted =>
          simp only [Control.step]
          split <;> exact brief
      | reconcile reconciled job =>
          obtain rfl := Option.some.inj about
          simp only [Control.step]
          split
          next =>
            intro pass isPass
            simp only [setPass, Function.update_self] at isPass
            obtain ⟨request, rest, decision, rfl⟩ := continue_some isPass
            have decided := weight_makeDecision job
            rw [Option.some.inj decision] at decided
            exact ⟨by simp, decided⟩
          next => exact brief
      | call called reply =>
          obtain rfl := Option.some.inj about
          have brief : control.Brief called (10 + 1) := fun pass isPass =>
            (brief pass isPass).imp_right Nat.le_succ_of_le
          exact brief.call reply
      | restart => cases about

theorem Brief.ends {calls : Nat} (brief : control.Brief name calls)
    (replies : List Reply) (enough : replies.length = calls) :
    (replies.foldl (fun state reply => state.step (.call name reply))
      control).passes name = none := by
  induction replies generalizing control calls with
  | nil =>
      obtain rfl : 0 = calls := enough
      cases isPass : control.passes name with
      | none => exact isPass
      | some pass =>
          obtain ⟨busy, light⟩ := brief pass isPass
          obtain ⟨request, rest, isTodo⟩ := List.exists_cons_of_ne_nil busy
          have heavy := request.weight_pos
          rw [isTodo, weight_cons] at light
          omega
  | cons reply rest ih =>
      obtain rfl : rest.length + 1 = calls := enough
      exact ih (brief.call reply) rfl

end Control

/-! ### Undisturbed passes -/

/-- Nobody else touches the job, and its calls are carried out. -/
def Control.Undisturbed (name : String) (control : Control) (event : Event) :
    Prop :=
  control.allowed event ∧
    (event = .call name .served ∨ ∃ other, event.about = some other ∧ name ≠ other)

instance (name : String) (control : Control) (event : Event) :
    Decidable (control.Undisturbed name event) :=
  decidable_of_iff (control.allowed event ∧ (event = .call name .served ∨
      ∃ other ∈ event.about, name ≠ other)) Iff.rfl

def MalstromJob.kept (job : MalstromJob) : List String :=
  if job.finalizers = [] then [finalizer] else job.finalizers

/-- A pass for a job that is there, and whose calls have all been carried out
since it began. -/
inductive Serving (before cluster : Cluster) (name : String) (job : MalstromJob) :
    List Request → Prop
  | deletes {rest : List Resource} (deleting : job.deletionTimestamp = true) :
      Serving before cluster name job (rest.map .delete ++ [.deleteFinalizer])
  | puts {rest : List Resource} {status : MalstromJobStatus}
      (stays : job.deletionTimestamp = false) (bare : job.finalizers = [])
      (scaled : .workerSts ∉ rest → cluster.scale name = job.replicas) :
      Serving before cluster name job
        (rest.map .apply ++ [.patchStatus status, .addFinalizer])
  | adds (stays : job.deletionTimestamp = false) (bare : job.finalizers = [])
      (scaled : cluster.scale name = job.replicas) :
      Serving before cluster name job [.addFinalizer]
  | compares (stays : job.deletionTimestamp = false)
      (listed : job.finalizers ≠ [])
      (untouched : ∀ resource,
        cluster.has name resource = before.has name resource) :
      Serving before cluster name job [.compareWithCluster]
  | patches {request : Request} {rest : List Request}
      (stays : job.deletionTimestamp = false) (listed : job.finalizers ≠ [])
      (found : before.has name .workerSts = true)
      (present : cluster.has name .workerSts = true)
      (isPlain : ∀ later ∈ request :: rest,
        later.isPlain = true ∧ later ≠ .compareWithCluster)
      (scaled : .apply .workerSts ∈ request :: rest ∨
        cluster.scale name = job.replicas) :
      Serving before cluster name job (request :: rest)

/-- What such a pass has brought about when it is over. -/
structure Served (before cluster : Cluster) (name : String) (job : MalstromJob) :
    Prop where
  deleted : job.deletionTimestamp = true → cluster.jobs name = none
  kept : job.deletionTimestamp = false →
    cluster.jobs name = some { job with finalizers := job.kept }
  scaled : job.deletionTimestamp = false → job.finalizers = [] ∨
    cluster.has name .workerSts = true → cluster.scale name = job.replicas
  untouched : job.deletionTimestamp = false → job.finalizers ≠ [] →
    before.has name .workerSts = false → ∀ resource,
      cluster.has name resource = before.has name resource

section

variable {before cluster next : Cluster} {name : String} {job : MalstromJob}

theorem Serving.congr {todo : List Request}
    (serving : Serving before cluster name job todo)
    (keeps : Cluster.Keeps cluster next name) :
    Serving before next name job todo := by
  cases serving with
  | deletes deleting => exact .deletes deleting
  | puts stays bare scaled =>
      exact .puts stays bare fun done => keeps.scale.trans (scaled done)
  | adds stays bare scaled => exact .adds stays bare (keeps.scale.trans scaled)
  | compares stays listed untouched =>
      exact .compares stays listed fun resource =>
        (keeps.has resource).trans (untouched resource)
  | patches stays listed found present isPlain scaled =>
      exact .patches stays listed found ((keeps.has _).trans present) isPlain
        (scaled.imp_right keeps.scale.trans)

theorem Served.congr (served : Served before cluster name job)
    (keeps : Cluster.Keeps cluster next name) :
    Served before next name job where
  deleted deleting := keeps.job.trans (served.deleted deleting)
  kept stays := keeps.job.trans (served.kept stays)
  scaled stays ready := keeps.scale.trans
    (served.scaled stays (ready.imp_right (keeps.has _).symm.trans))
  untouched stays listed missing resource :=
    (keeps.has resource).trans (served.untouched stays listed missing resource)

end

def Control.Progress (before : Cluster) (name : String) (job : MalstromJob)
    (control : Control) : Prop :=
  (∀ pass, control.passes name = some pass → pass.job = job ∧
    control.cluster.jobs name = some job ∧
      Serving before control.cluster name job pass.todo) ∧
  (control.passes name = none → Served before control.cluster name job)

namespace Control

variable {before : Cluster} {name : String} {job : MalstromJob}
  {control : Control}

theorem Progress.called {request : Request} {rest : List Request}
    {cluster : Cluster} {answer : Answer}
    (isAnswer : Reply.served.answer control.cluster
      (request.serve control.cluster name job) = (cluster, answer))
    (isJob : ∀ left, request.proceed cluster name job answer rest = some left →
      left ≠ [] → cluster.jobs name = some job ∧
        Serving before cluster name job left)
    (ended : request.proceed cluster name job answer rest = none ∨
      request.proceed cluster name job answer rest = some [] →
        Served before cluster name job) :
    (control.call name .served ⟨job, request :: rest⟩).Progress before name
      job := by
  have called : control.call name .served ⟨job, request :: rest⟩ =
      Control.setPass ⟨cluster, control.passes⟩ name
        (Pass.continue job (request.proceed cluster name job answer rest)) := by
    simp only [Control.call, isAnswer]
  rw [called]
  constructor
  · intro pass isPass
    simp only [setPass, Function.update_self] at isPass
    obtain ⟨first, others, proceeds, rfl⟩ := continue_some isPass
    exact ⟨rfl, isJob _ proceeds (by simp)⟩
  · intro isOver
    simp only [setPass, Function.update_self] at isOver
    refine ended ?_
    cases proceeds : request.proceed cluster name job answer rest with
    | none => exact .inl rfl
    | some left =>
        cases left with
        | nil => exact .inr rfl
        | cons first others =>
            rw [proceeds] at isOver
            cases isOver

theorem served_delete {resource : Resource} {next : Cluster} {answer : Answer}
    (isAnswer : Reply.served.answer control.cluster
      (Request.serve control.cluster name job (.delete resource)) =
        (next, answer)) :
    next.jobs = control.cluster.jobs ∧ answer ≠ .api .other := by
  simp only [Request.serve] at isAnswer
  split at isAnswer
  next =>
    obtain ⟨rfl, rfl⟩ := Prod.mk.inj isAnswer
    refine ⟨?_, by simp⟩
    unfold Cluster.remove
    split <;> rfl
  next =>
    obtain ⟨rfl, rfl⟩ := Prod.mk.inj isAnswer
    exact ⟨rfl, by simp⟩

theorem served_ok {cluster next : Cluster} {result : Except Refusal Cluster}
    (served : result = .ok next) :
    Reply.served.answer cluster result = (next, .ok) := by
  rw [served]
  rfl

theorem proceed_ne_none {cluster : Cluster} {request : Request}
    {rest : List Request} :
    request.proceed cluster name job .ok rest ≠ none := by
  cases request with
  | compareWithCluster | getWorkerSts =>
      simp only [Request.proceed, if_true]
      split <;> simp
  | _ => simp [Request.proceed]

theorem Progress.patched {request : Request} {rest : List Request}
    (valid : 0 ≤ job.replicas) (isJob : control.cluster.jobs name = some job)
    (stays : job.deletionTimestamp = false) (listed : job.finalizers ≠ [])
    (found : before.has name .workerSts = true)
    (present : control.cluster.has name .workerSts = true)
    (isPlain : ∀ later ∈ request :: rest,
      later.isPlain = true ∧ later ≠ .compareWithCluster)
    (scaled : .apply .workerSts ∈ request :: rest ∨
      control.cluster.scale name = job.replicas) :
    (control.call name .served ⟨job, request :: rest⟩).Progress before name
      job := by
  obtain ⟨plain, notCompared⟩ := isPlain request List.mem_cons_self
  have isThere := Option.isSome_of_eq_some isJob
  obtain ⟨cluster, served⟩ := serve_ok plain valid isThere fun _ => present
  obtain ⟨jobs, kept, -, -, scale⟩ := serve_plain plain served
  have isKept : cluster.jobs name = some job := (congrFun jobs name).trans isJob
  have isPresent := kept name _ present
  have isScaled : .apply .workerSts ∈ rest ∨
      cluster.scale name = job.replicas := by
    rw [scale]
    split
    next => exact .inr rfl
    next others =>
      refine scaled.imp_left fun member => ?_
      rcases List.mem_cons.mp member with same | later
      · exact absurd ⟨rfl, .inl same.symm⟩ others
      · exact later
  have goesOn : ∀ left,
      request.proceed cluster name job .ok rest = some left →
        (.apply .workerSts ∈ left ∨ cluster.scale name = job.replicas) ∧
        ∀ later ∈ left, later.isPlain = true ∧ later ≠ .compareWithCluster := by
    have restPlain : ∀ later ∈ rest,
        later.isPlain = true ∧ later ≠ .compareWithCluster :=
      fun later member => isPlain later (.tail _ member)
    intro left proceeds
    cases request with
    | addFinalizer => cases plain
    | delete => cases plain
    | deleteFinalizer => cases plain
    | compareWithCluster => exact absurd rfl notCompared
    | getWorkerSts =>
        simp only [Request.proceed, if_true] at proceeds
        split at proceeds
        next =>
          obtain rfl := Option.some.inj proceeds
          refine ⟨isScaled.imp_left (List.mem_append_right _), ?_⟩
          intro later member
          rcases List.mem_append.mp member with rescales | isLater
          · exact performRescale_plain later rescales
          · exact restPlain later isLater
        next =>
          obtain rfl := Option.some.inj proceeds
          exact ⟨isScaled, restPlain⟩
    | apply | connect | scaleWorkerSts | rescale | patchStatus =>
        obtain rfl : rest = left := by simpa [Request.proceed] using proceeds
        exact ⟨isScaled, restPlain⟩
  refine Progress.called (served_ok served) (fun left proceeds some => ?_)
    fun ended => ?_
  · obtain ⟨isScaled, leftPlain⟩ := goesOn left proceeds
    obtain ⟨first, others, rfl⟩ := List.exists_cons_of_ne_nil some
    exact ⟨isKept, .patches stays listed found isPresent leftPlain isScaled⟩
  · have isLast : cluster.scale name = job.replicas := by
      have done := ended.resolve_left proceed_ne_none
      exact (goesOn _ done).1.resolve_left (by simp)
    refine ⟨by simp [stays], fun _ => ?_, fun _ _ => isLast, fun _ _ missing => ?_⟩
    · rw [isKept, MalstromJob.kept, if_neg listed]
    · rw [found] at missing
      cases missing

theorem Progress.call {pass : Pass} (valid : 0 ≤ job.replicas)
    (progress : control.Progress before name job)
    (isPass : control.passes name = some pass) :
    (control.call name .served pass).Progress before name job := by
  obtain ⟨isSame, isJob, serving⟩ := progress.1 pass isPass
  obtain ⟨passJob, todo⟩ := pass
  obtain rfl : passJob = job := isSame
  cases serving with
  | @deletes rest deleting =>
      cases rest with
      | nil =>
          have served : Request.serve control.cluster name passJob
              .deleteFinalizer = .ok (control.cluster.setJob name none) := by
            simp [Request.serve, setFinalizers, isJob, deleting]
          refine Progress.called (served_ok served) (fun left proceeds some => ?_)
            fun _ => ?_
          · exact absurd (Option.some.inj proceeds).symm some
          · refine ⟨fun _ => by simp [Cluster.setJob], ?_, ?_, ?_⟩ <;>
              simp [deleting]
      | cons resource rest =>
          rcases isAnswer : Reply.served.answer control.cluster
            (Request.serve control.cluster name passJob (.delete resource)) with
            ⟨cluster, answer⟩
          obtain ⟨jobs, goesOn⟩ := served_delete isAnswer
          refine Progress.called isAnswer (fun left proceeds _ => ?_)
            fun ended => ?_
          · rw [Request.proceed, if_neg goesOn] at proceeds
            obtain rfl := Option.some.inj proceeds
            exact ⟨(congrFun jobs name).trans isJob, .deletes deleting⟩
          · cases rest <;> simp [Request.proceed, goesOn] at ended
  | @puts rest status stays bare scaled =>
      cases rest with
      | nil =>
          have served : Request.serve control.cluster name passJob
              (.patchStatus status) = .ok control.cluster := by
            simp [Request.serve, isJob]
          refine Progress.called (served_ok served) (fun left proceeds _ => ?_)
            fun ended => ?_
          · obtain rfl := Option.some.inj proceeds
            exact ⟨isJob, .adds stays bare (scaled (by simp))⟩
          · simp [Request.proceed] at ended
      | cons resource rest =>
          have isApplied : ∃ cluster, Request.serve control.cluster name passJob
              (.apply resource) = .ok cluster :=
            serve_ok rfl valid (Option.isSome_of_eq_some isJob)
              fun no => absurd rfl (no resource)
          obtain ⟨cluster, served⟩ := isApplied
          obtain ⟨jobs, -, -, -, scale⟩ := serve_plain rfl served
          refine Progress.called (served_ok served) (fun left proceeds _ => ?_)
            fun ended => ?_
          · obtain rfl := Option.some.inj proceeds
            refine ⟨(congrFun jobs name).trans isJob, .puts stays bare fun done => ?_⟩
            rw [scale]
            split
            next => rfl
            next others =>
              refine scaled fun member => ?_
              rcases List.mem_cons.mp member with rfl | later
              · exact others ⟨rfl, .inl rfl⟩
              · exact done later
          · cases rest <;> simp [Request.proceed] at ended
  | adds stays bare scaled =>
      have served : Request.serve control.cluster name passJob .addFinalizer =
          .ok (control.cluster.setJob name
            (some { passJob with finalizers := [finalizer] })) := by
        simp [Request.serve, setFinalizers, isJob, stays]
      refine Progress.called (served_ok served) (fun left proceeds some => ?_)
        fun _ => ?_
      · exact absurd (Option.some.inj proceeds).symm some
      · refine ⟨by simp [stays], fun _ => ?_, fun _ _ => scaled, ?_⟩
        · simp [Cluster.setJob, MalstromJob.kept, bare]
        · simp [bare]
  | compares stays listed untouched =>
      have kept : control.cluster.jobs name =
          some { passJob with finalizers := passJob.kept } := by
        rw [isJob, MalstromJob.kept, if_neg listed]
      cases present : control.cluster.has name .workerSts with
      | false =>
          have isAnswer : Reply.served.answer control.cluster
              (Request.serve control.cluster name passJob .compareWithCluster) =
              (control.cluster, .api .notFound) := by
            simp [Request.serve, present, Reply.answer]
          refine Progress.called isAnswer (fun left proceeds some => ?_)
            fun _ => ?_
          · exact absurd (Option.some.inj proceeds).symm some
          · exact ⟨by simp [stays], fun _ => kept, by simp [listed, present],
              fun _ _ _ => untouched⟩
      | true =>
          have served : Request.serve control.cluster name passJob
              .compareWithCluster = .ok control.cluster := if_pos present
          have found := (untouched .workerSts).symm.trans present
          by_cases scaled : control.cluster.scale name = passJob.replicas
          · refine Progress.called (served_ok served)
              (fun left proceeds some => ?_) fun _ => ?_
            · simp only [Request.proceed, scaled, ne_eq, not_true_eq_false,
                if_true, if_false] at proceeds
              exact absurd (Option.some.inj proceeds).symm some
            · exact ⟨by simp [stays], fun _ => kept, fun _ _ => scaled,
                fun _ _ _ => untouched⟩
          · refine Progress.called (served_ok served)
              (fun left proceeds _ => ?_) fun ended => ?_
            · simp only [Request.proceed, scaled, ne_eq, not_false_eq_true,
                if_true, DecisionAction.requests] at proceeds
              obtain rfl := Option.some.inj proceeds
              exact ⟨isJob, .patches stays listed found present
                (by simp [Request.isPlain]) (.inl (by simp))⟩
            · simp [Request.proceed, scaled, DecisionAction.requests,
                patch] at ended
  | patches stays listed found present isPlain scaled =>
      exact Progress.patched valid isJob stays listed found present isPlain
        scaled

theorem Progress.step {event : Event} (valid : 0 ≤ job.replicas)
    (progress : control.Progress before name job)
    (undisturbed : control.Undisturbed name event) :
    (control.step event).Progress before name job := by
  obtain ⟨-, rfl | ⟨other, about, different⟩⟩ := undisturbed
  · simp only [Control.step]
    split
    next => exact progress
    next pass isPass => exact progress.call valid isPass
  · obtain ⟨keeps, passes⟩ := step_foreign about different
    constructor
    · intro pass isPass
      obtain ⟨isSame, isJob, serving⟩ := progress.1 pass (passes ▸ isPass)
      exact ⟨isSame, keeps.job.trans isJob, serving.congr keeps⟩
    · exact fun idle => (progress.2 (passes ▸ idle)).congr keeps

theorem Progress.start (isJob : control.cluster.jobs name = some job)
    (idle : control.passes name = none) :
    (control.step (.reconcile name job)).Progress control.cluster name job := by
  have decides : Serving control.cluster control.cluster name job
      (makeDecision job) := by
    unfold makeDecision
    split
    next deleting =>
      have stage : Serving control.cluster control.cluster name job
        (allResourceSpecs.map .delete ++ [.deleteFinalizer]) := .deletes deleting
      exact stage
    next stays =>
      have isKept := Bool.eq_false_iff.mpr stays
      split
      next bare =>
        have stage : Serving control.cluster control.cluster name job
            (allResourceSpecs.map .apply ++
              [.patchStatus job.reported, .addFinalizer]) :=
          .puts isKept (List.isEmpty_iff.mp bare) (by simp [allResourceSpecs])
        exact stage
      next listed =>
        exact .compares isKept (fun bare => listed (List.isEmpty_iff.mpr bare))
          fun _ => rfl
  have started : control.step (.reconcile name job) =
      control.setPass name (Pass.continue job (some (makeDecision job))) := by
    simp only [Control.step, idle]
  rw [started]
  constructor
  · intro pass isPass
    simp only [setPass, Function.update_self] at isPass
    obtain ⟨request, rest, decision, rfl⟩ := continue_some isPass
    exact ⟨rfl, isJob, Option.some.inj decision ▸ decides⟩
  · intro isOver
    simp only [setPass, Function.update_self] at isOver
    obtain ⟨request, rest, decided⟩ :=
      List.exists_cons_of_ne_nil (makeDecision_ne_nil job)
    rw [decided] at isOver
    cases isOver

end Control

/-- A pass which nobody disturbs settles the job, whatever is done for other
jobs at the same time: a job which is to be deleted is gone with its resources,
one with the operator's finalizer has all of them in its own scale, and one that
somebody else's finalizer came to first is left alone.  No pass makes more than
ten calls. -/
theorem pass_settles {control later : Control} {name : String}
    {job : MalstromJob}
    (run : Reaches Control.act Control.allowed Control.initial control)
    (isJob : control.cluster.jobs name = some job)
    (idle : control.passes name = none) (valid : 0 ≤ job.replicas)
    (undisturbed : Reaches Control.act (Control.Undisturbed name)
      (control.step (.reconcile name job)) later) :
    (later.passes name = none →
      (job.deletionTimestamp = true → later.cluster.jobs name = none ∧
        ∀ resource, later.cluster.has name resource = false) ∧
      (job.deletionTimestamp = false →
        later.cluster.jobs name = some { job with finalizers := job.kept } ∧
        (finalizer ∈ job.kept → later.cluster.scale name = job.replicas ∧
          ∀ resource, later.cluster.has name resource = true) ∧
        (finalizer ∉ job.kept → control.cluster.has name .workerSts = false →
          ∀ resource, later.cluster.has name resource =
            control.cluster.has name resource))) ∧
    ∀ replies : List Reply, replies.length = 10 →
      (replies.foldl (fun state reply => state.step (.call name reply))
        later).passes name = none := by
  have current : control.allowed (.reconcile name job) := ⟨job, isJob, id⟩
  have started : Reaches Control.act Control.allowed Control.initial
      (control.step (.reconcile name job)) := run.tail current rfl
  have owned := Control.owned_reaches
    (started.trans (undisturbed.mono fun _ _ permitted => permitted.1)) name
  have progress : later.Progress control.cluster name job := by
    refine undisturbed.invariant
      (fun state => state.Progress control.cluster name job)
      (.start isJob idle) fun state event next _ progress permitted stepped => ?_
    obtain rfl := Except.ok.inj stepped
    exact progress.step valid permitted
  have brief : later.Brief name 10 := by
    refine undisturbed.invariant (fun state => state.Brief name 10)
      (Control.Brief.idle idle 10).step
      fun state event next _ brief _ stepped => ?_
    obtain rfl := Except.ok.inj stepped
    exact brief.step
  refine ⟨fun isOver => ?_, fun replies enough => brief.ends replies enough⟩
  have served := progress.2 isOver
  refine ⟨fun deleting => ?_, fun stays => ?_⟩
  · have gone := served.deleted deleting
    exact ⟨gone, (owned.gone (by simp [Cluster.lease, gone])).2⟩
  · have kept := served.kept stays
    refine ⟨kept, fun listed => ?_, fun foreign missing => ?_⟩
    · have whole := owned.whole job.kept
        (by simp [Cluster.lease, kept, MalstromJob.lease, stays]) listed
      exact ⟨served.scaled stays (.inr (whole _)), whole⟩
    · refine served.untouched stays (fun bare => foreign ?_) missing
      simp [MalstromJob.kept, bare]

/-- The job has its resources, and is to have another worker. -/
def rescaledJob : List Event :=
  [.create "words" 2 [], .reconcile "words" { replicas := 2 }] ++
    List.replicate 6 (.call "words" .served) ++
      [.edit "words" 3 [finalizer]]

/-- The pass for it, while another job is made. -/
def besideOther : List Event :=
  [.call "words" .served, .create "counts" 1 [], .call "words" .served,
    .reconcile "counts" { replicas := 1 }, .call "counts" .served,
    .call "words" .served, .call "words" .served, .call "counts" .lost] ++
    List.replicate 6 (.call "words" .served)

@[irreducible] def rescaled : Control :=
  replay Control.act Control.initial rescaledJob

@[irreducible] def settled : Control :=
  replay Control.act (rescaled.step (.reconcile "words"
    { replicas := 3, finalizers := [finalizer] })) besideOther

theorem rescaled_settles :
    rescaled.cluster.scale "words" = 2 ∧ settled.passes "words" = none ∧
      settled.cluster.scale "words" = 3 ∧
        ∀ resource, settled.cluster.has "words" resource = true := by
  have run : Reaches Control.act Control.allowed Control.initial rescaled := by
    unfold rescaled
    exact Follows.reaches rescaledJob .refl (by decide +kernel)
  have undisturbed : Reaches Control.act (Control.Undisturbed "words")
      (rescaled.step (.reconcile "words"
        { replicas := 3, finalizers := [finalizer] })) settled := by
    unfold settled
    exact Follows.reaches besideOther .refl (by decide +kernel)
  have isOver : settled.passes "words" = none := by decide +kernel
  have settles := pass_settles run (by decide +kernel) (by decide +kernel)
    (by decide) undisturbed
  exact ⟨by decide +kernel, isOver,
    ((settles.1 isOver).2 rfl).2.1 (by simp [MalstromJob.kept])⟩

/-! ### Resources without a job -/

namespace Control

variable {control : Control} {before : Cluster} {name : String}
  {resource : Resource}

/-- The job is not made again.  Passes for what it once was may still begin; it
has never been one to be deleted. -/
def Forsakes (name : String) : Event → Prop
  | .create created _ _ => created ≠ name
  | .reconcile reconciled job => reconciled = name → job.deletionTimestamp = false
  | _ => True

instance (name : String) : (event : Event) → Decidable (Forsakes name event)
  | .create created _ _ => inferInstanceAs (Decidable (created ≠ name))
  | .reconcile reconciled job => inferInstanceAs
      (Decidable (reconciled = name → job.deletionTimestamp = false))
  | .edit _ _ _ | .delete _ | .call _ _ | .restart => isTrue trivial

/-- The job is gone, no resource of it has gone since, and a pass which is left
for it takes none away. -/
structure Orphaned (before : Cluster) (control : Control) (name : String) :
    Prop where
  gone : control.cluster.lease name = none
  pass : ∀ pass, control.passes name = some pass → ∀ request ∈ pass.todo,
    request.isPlain = true ∨ request = .addFinalizer
  kept : ∀ resource, before.has name resource = true →
    control.cluster.has name resource = true

theorem makeDecision_keeps {job : MalstromJob}
    (stays : job.deletionTimestamp = false) :
    ∀ request ∈ makeDecision job,
      request.isPlain = true ∨ request = .addFinalizer := by
  unfold makeDecision
  rw [if_neg (Bool.eq_false_iff.mp stays)]
  split
  · simp [DecisionAction.requests, create, allResourceSpecs, Request.isPlain]
  · simp [Request.isPlain]

/-- The finalizer of a job that is gone is not set. -/
theorem Orphaned.call {pass : Pass} (orphaned : Orphaned before control name)
    (isPass : control.passes name = some pass) (reply : Reply) :
    Orphaned before (control.call name reply pass) name := by
  have keeps := orphaned.pass pass isPass
  obtain ⟨job, todo⟩ := pass
  cases todo with
  | nil =>
      refine ⟨orphaned.gone, fun pass isPass => ?_, orphaned.kept⟩
      simp [Control.call, setPass] at isPass
  | cons request rest =>
      rcases isAnswer : reply.answer control.cluster
        (request.serve control.cluster name job) with ⟨cluster, answer⟩
      have restKeeps : ∀ later ∈ rest,
          later.isPlain = true ∨ later = .addFinalizer :=
        fun later member => keeps later (.tail _ member)
      have called : control.call name reply ⟨job, request :: rest⟩ =
          Control.setPass ⟨cluster, control.passes⟩ name
            (Pass.continue job
              (request.proceed cluster name job answer rest)) := by
        simp only [Control.call, isAnswer]
      have goesOn (left : List Request)
          (proceeds : request.proceed cluster name job answer rest = some left) :
          ∀ later ∈ left, later.isPlain = true ∨ later = .addFinalizer := by
        rcases keeps request List.mem_cons_self with plain | rfl
        · exact proceed_forall _ (fun _ => .inl) plain restKeeps proceeds
        · have ok := proceed_ok (by simp) (by simp) proceeds
          obtain rfl : rest = left := by simpa [Request.proceed, ok] using proceeds
          exact restKeeps
      have left : cluster.lease name = none ∧ ∀ resource,
          before.has name resource = true → cluster.has name resource = true := by
        rcases keeps request List.mem_cons_self with plain | rfl
        · obtain ⟨lease, kept, -⟩ := answer_plain plain isAnswer
          exact ⟨(congrFun lease name).trans orphaned.gone,
            fun resource isMade => kept resource (orphaned.kept resource isMade)⟩
        · obtain ⟨has, lease⟩ := answer_finalizers isAnswer
          refine ⟨?_, fun resource isMade =>
            (has resource).trans (orphaned.kept resource isMade)⟩
          rcases lease with same | ⟨deleting, before, isLease, -⟩
          · exact same.trans orphaned.gone
          · rw [orphaned.gone] at isLease
            cases isLease
      rw [called]
      refine ⟨left.1, fun pass isPass => ?_, left.2⟩
      simp only [setPass, Function.update_self] at isPass
      obtain ⟨first, others, proceeds, rfl⟩ := continue_some isPass
      exact goesOn _ proceeds

theorem Orphaned.step {event : Event} (orphaned : Orphaned before control name)
    (forsakes : Forsakes name event) :
    Orphaned before (control.step event) name := by
  have absent : control.cluster.jobs name = none :=
    Option.map_eq_none_iff.mp orphaned.gone
  cases about : event.about with
  | none =>
      cases event with
      | restart =>
          refine ⟨orphaned.gone, fun pass isPass => ?_, orphaned.kept⟩
          simp [Control.step] at isPass
      | _ => cases about
  | some touched =>
      by_cases other : name ≠ touched
      · obtain ⟨keeps, passes⟩ := step_foreign about other
        refine ⟨?_, fun pass isPass => orphaned.pass pass (passes ▸ isPass),
          fun resource isMade =>
            (keeps.has resource).trans (orphaned.kept resource isMade)⟩
        rw [Cluster.lease, keeps.job, absent, Option.map_none]
      obtain rfl := not_not.mp other
      cases event with
      | create created replicas finalizers =>
          obtain rfl := Option.some.inj about
          exact absurd rfl forsakes
      | edit edited replicas finalizers =>
          obtain rfl := Option.some.inj about
          simpa only [Control.step, absent] using orphaned
      | delete deleted =>
          obtain rfl := Option.some.inj about
          simpa only [Control.step, absent] using orphaned
      | reconcile reconciled job =>
          obtain rfl := Option.some.inj about
          simp only [Control.step]
          split
          next =>
            refine ⟨orphaned.gone, fun pass isPass => ?_, orphaned.kept⟩
            simp only [setPass, Function.update_self] at isPass
            obtain ⟨request, rest, decision, rfl⟩ := continue_some isPass
            exact Option.some.inj decision ▸ makeDecision_keeps (forsakes rfl)
          next => exact orphaned
      | call called reply =>
          obtain rfl := Option.some.inj about
          simp only [Control.step]
          split
          next => exact orphaned
          next pass isPass => exact orphaned.call isPass reply
      | restart => cases about

theorem Owned.creating {pass : Pass} (owned : control.Owned name)
    (isPass : control.passes name = some pass)
    (creates : .addFinalizer ∈ pass.todo) :
    ∀ request ∈ pass.todo,
      request.isPlain = true ∨ request = .addFinalizer := by
  have stage := owned.pass pass isPass
  generalize pass.todo = todo at stage creates
  cases stage with
  | deletes => simp at creates
  | puts =>
      simp only [List.mem_append, List.mem_map, List.mem_cons, List.not_mem_nil,
        or_false]
      rintro request (⟨resource, -, rfl⟩ | rfl | rfl)
      · exact .inl rfl
      · exact .inl rfl
      · exact .inr rfl
  | adds => simp
  | plain isPlain => exact fun request member => .inl (isPlain request member)

theorem Owned.made {pass : Pass} (owned : control.Owned name)
    (isPass : control.passes name = some pass)
    (creates : .addFinalizer ∈ pass.todo) (made : .apply resource ∉ pass.todo) :
    control.cluster.has name resource = true := by
  have stage := owned.pass pass isPass
  generalize pass.todo = todo at stage creates made
  cases stage with
  | deletes => simp at creates
  | puts isMade =>
      refine isMade resource fun member => made ?_
      exact List.mem_append_left _ (List.mem_map_of_mem member)
  | adds isMade => exact isMade resource
  | plain isPlain => cases isPlain _ creates

end Control

/-- The operator never cleans up behind a job which is deleted before it has its
finalizer: what the pass which was to set it has made stays, whatever this pass,
later ones for the same job or those for other jobs do, until the job is made
again. -/
theorem orphans_stay {control later : Control} {name : String} {pass : Pass}
    (run : Reaches Control.act Control.allowed Control.initial control)
    (isPass : control.passes name = some pass)
    (creates : .addFinalizer ∈ pass.todo)
    (bare : ∀ job ∈ control.cluster.jobs name, job.finalizers = [])
    (after : Reaches Control.act (fun _ => Control.Forsakes name)
      (control.step (.delete name)) later) :
    later.cluster.jobs name = none ∧
      ∀ resource, .apply resource ∉ pass.todo →
        later.cluster.has name resource = true := by
  have owned := Control.owned_reaches run name
  have orphaned : Control.Orphaned control.cluster (control.step (.delete name))
      name := by
    have keeps : ∀ request ∈ pass.todo,
        request.isPlain = true ∨ request = .addFinalizer :=
      owned.creating isPass creates
    have pass : ∀ current, control.passes name = some current →
        ∀ request ∈ current.todo,
          request.isPlain = true ∨ request = .addFinalizer := by
      intro current isCurrent
      rw [isPass] at isCurrent
      exact Option.some.inj isCurrent ▸ keeps
    simp only [Control.step]
    split
    next absent =>
      exact ⟨by simp [Cluster.lease, absent], pass, fun _ => id⟩
    next job isJob =>
      refine ⟨?_, pass, fun _ => id⟩
      simp [Cluster.lease, Cluster.setJob, bare job isJob]
  have stays : Control.Orphaned control.cluster later name := by
    refine after.invariant (fun state =>
      Control.Orphaned control.cluster state name) orphaned
        fun state event next _ orphaned forsakes stepped => ?_
    obtain rfl := Except.ok.inj stepped
    exact orphaned.step forsakes
  exact ⟨Option.map_eq_none_iff.mp stays.gone, fun resource made =>
    stays.kept resource (owned.made isPass creates made)⟩

/-- The job is deleted when its resources are made and its finalizer is not. -/
def uptoFinalizer : List Event :=
  [.create "words" 2 [], .reconcile "words" { replicas := 2 },
    .call "words" .served, .call "words" .served, .call "words" .served,
    .call "words" .served, .call "words" .served]

/-- Its pass ends, and another begins with what the job was, while another job
is made and removed. -/
def afterDeletion : List Event :=
  [.call "words" .served, .reconcile "words" { replicas := 2 },
    .create "counts" 1 [], .call "words" .served,
    .reconcile "counts" { replicas := 1 }, .call "counts" .served,
    .call "words" .lost, .call "counts" .served, .delete "counts", .restart]

@[irreducible] def unfinalized : Control :=
  replay Control.act Control.initial uptoFinalizer

@[irreducible] def forsaken : Control :=
  replay Control.act (unfinalized.step (.delete "words")) afterDeletion

theorem early_deletion_orphans :
    unfinalized.passes "words" = some ⟨{ replicas := 2 }, [.addFinalizer]⟩ ∧
    forsaken.cluster.jobs "words" = none ∧
      ∀ resource, forsaken.cluster.has "words" resource = true := by
  have run : Reaches Control.act Control.allowed Control.initial
      unfinalized := by
    unfold unfinalized
    exact Follows.reaches uptoFinalizer .refl (by decide +kernel)
  have after : Reaches Control.act (fun _ => Control.Forsakes "words")
      (unfinalized.step (.delete "words")) forsaken := by
    unfold forsaken
    exact Follows.reaches afterDeletion .refl (by decide +kernel)
  have isPass : unfinalized.passes "words" =
      some ⟨{ replicas := 2 }, [.addFinalizer]⟩ := by
    decide +kernel
  have isJob : unfinalized.cluster.jobs "words" = some { replicas := 2 } := by
    decide +kernel
  have bare : ∀ job ∈ unfinalized.cluster.jobs "words", job.finalizers = [] := by
    intro job isCurrent
    rw [isJob] at isCurrent
    exact Option.some.inj isCurrent ▸ rfl
  obtain ⟨gone, left⟩ := orphans_stay run isPass List.mem_cons_self bare after
  exact ⟨isPass, gone, fun resource => left resource (by simp)⟩

end Malstrom.Kubernetes.Lifecycle
