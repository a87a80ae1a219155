import Malstrom.Coordinator.Job
import Malstrom.Data.Link

namespace Malstrom.Coordinator

open Data Keyed

/-! The worker sets which the coordinator hands out, and the ones the routers
of the workers go by, over the lives of a job. -/

/-- A worker has written its part of a snapshot while its routers went by this
worker set. -/
structure SnapshotTaken where
  worker : WorkerId
  version : SnapshotVersion
  workerSet : IndexSet WorkerId

/-- A job with what was asked of it and what became of its workers. -/
structure Deployment where
  job : Job
  /-- The scale which was requested last. -/
  scale : Nat
  /-- What the last `Reconfigure` said. -/
  config : IndexSet WorkerId
  /-- The worker set in the routers of each worker. -/
  routers : WorkerId → IndexSet WorkerId
  builds : List (WorkerId × BuildInformation)
  snapshots : List SnapshotTaken

namespace Peer

def building (peer : Peer) : Option BuildInformation :=
  match peer.thread, peer.commands with
  | .awaitsBuild, .startBuild info :: _ => some info
  | _, _ => none

def writing (peer : Peer) : Option SnapshotVersion :=
  match peer.thread with
  | .performing (.snapshot version) => some version
  | _ => none

/-- The worker set in the routers after the next thing the thread does: a build
starts with the workers it was given, a reconfiguration ends with those of its
message. -/
def adopt (peer : Peer) (routers : IndexSet WorkerId) : IndexSet WorkerId :=
  match peer.thread, peer.building with
  | .performing (.reconfig config _), _ => config
  | _, some info => IndexSet.ofList info.workerSet
  | _, none => routers

end Peer

namespace Deployment

def work (deployment : Deployment) (worker : WorkerId) : Deployment :=
  let peer := deployment.job.peers worker
  let routers := deployment.routers worker
  { deployment with
    routers :=
      Function.update deployment.routers worker (peer.adopt routers)
    builds := deployment.builds ++
      peer.building.toList.map fun info => (worker, info)
    snapshots := deployment.snapshots ++
      peer.writing.toList.map fun version => ⟨worker, version, routers⟩ }

def coordinate (deployment : Deployment) : Deployment :=
  match deployment.job.doing with
  | .perform (.reconfig config _) (.sending (_ :: _)) =>
      { deployment with config := config }
  | _ => deployment

def next (deployment : Deployment) (event : Job.Event) : Deployment :=
  let seen := match event with
    | .work worker => deployment.work worker
    | .coordinate => deployment.coordinate
    | .request (.scale desired) => { deployment with scale := desired }
    | _ => deployment
  { seen with job := deployment.job.next event }

def step (deployment : Deployment) (event : Job.Event) :
    Except Empty Deployment :=
  .ok (deployment.next event)

def allowed (deployment : Deployment) (event : Job.Event) : Prop :=
  deployment.job.allowed event

instance (deployment : Deployment) (event : Job.Event) :
    Decidable (deployment.allowed event) :=
  inferInstanceAs (Decidable (deployment.job.allowed event))

def boot (state : SerializableCoordinatorState)
    (resume : Option SnapshotVersion) : Deployment where
  job := .boot state resume
  scale := state.activeWorkers.items.length
  config := state.activeWorkers
  routers _ := .empty
  builds := []
  snapshots := []

end Deployment

/-- The state a coordinator may find when it is started, with the version it
was committed under. -/
inductive Persisted : Option SnapshotVersion → SerializableCoordinatorState →
    Prop
  | nothing : Persisted none {}
  | committed {resume : Option SnapshotVersion}
      {state : SerializableCoordinatorState} {deployment : Deployment}
      {commit : SnapshotVersion × SerializableCoordinatorState}
      (before : Persisted resume state)
      (life : Reaches Deployment.step Deployment.allowed
        (Deployment.boot state resume) deployment)
      (member : commit ∈ deployment.job.committed) :
      Persisted (some commit.1) commit.2

/-! ### What a worker goes by -/

/-- The worker set in the routers once the thread has done what it is at, of a
thread which has routers. -/
def Peer.view (peer : Peer) (routers : IndexSet WorkerId) :
    Option (IndexSet WorkerId) :=
  match peer.thread with
  | .built | .running | .performing (.snapshot _) => some routers
  | .performing (.reconfig config _) => some config
  | .absent | .awaitsBuild | .ended => none

def advance (view : Option (IndexSet WorkerId)) :
    CoordinationMessage → Option (IndexSet WorkerId)
  | .startBuild info => some (IndexSet.ofList info.workerSet)
  | .reconfigure config _ => view.map fun _ => config
  | .startExecution | .snapshot _ | .suspend => view

/-- Less may be known because the thread has ended. -/
def Below (view other : Option (IndexSet WorkerId)) : Prop :=
  view = none ∨ view = other

section

variable {view other : Option (IndexSet WorkerId)}
  {commands : List CoordinationMessage}

theorem Below.refl (view : Option (IndexSet WorkerId)) : Below view view :=
  .inr rfl

theorem below_advance (below : Below view other)
    (message : CoordinationMessage) :
    Below (advance view message) (advance other message) := by
  obtain rfl | rfl := below
  · cases message with
    | startBuild => exact .refl _
    | startExecution | snapshot | reconfigure | suspend => exact .inl rfl
  · exact .refl _

theorem below_viewAfter (below : Below view other) :
    Below (viewAfter advance view commands)
      (viewAfter advance other commands) := by
  induction commands generalizing view other with
  | nil => exact below
  | cons message rest ih => exact ih (below_advance below message)

/-- Every snapshot is taken with a worker set which is expected for it. -/
def Good (expects : SnapshotVersion → IndexSet WorkerId → Prop)
    (view : Option (IndexSet WorkerId)) : CoordinationMessage → Prop
  | .snapshot version => ∀ set, view = some set → expects version set
  | .startBuild _ | .startExecution | .reconfigure _ _ | .suspend => True

variable {expects expects' : SnapshotVersion → IndexSet WorkerId → Prop}

theorem good_below {message : CoordinationMessage} (below : Below view other)
    (good : Good expects other message) : Good expects view message := by
  obtain rfl | rfl := below
  · cases message <;> simp [Good]
  · exact good

theorem judged_below (below : Below view other)
    (judged : Judged advance (Good expects) other commands) :
    Judged advance (Good expects) view commands := by
  induction commands generalizing view other with
  | nil => trivial
  | cons message rest ih =>
      exact ⟨good_below below judged.1, ih (below_advance below message)
        judged.2⟩

theorem judged_expects
    (more : ∀ version set, expects version set → expects' version set)
    (judged : Judged advance (Good expects) view commands) :
    Judged advance (Good expects') view commands := by
  refine judged.mono fun later message _ good => ?_
  cases message with
  | snapshot version => exact fun set known => more version set (good set known)
  | startBuild | startExecution | reconfigure | suspend => trivial

end

/-! ### What a thread does -/

section

variable {worker : WorkerId} {peer next : Peer} {routers : IndexSet WorkerId}

/-- The thread of a worker goes on, and takes commands off its queue. -/
def Takes (peer : Peer) (routers : IndexSet WorkerId) (next : Peer)
    (routers' : IndexSet WorkerId) : Prop :=
  ∃ taken, peer.commands = taken ++ next.commands ∧
    Below (next.view routers')
      (viewAfter advance (peer.view routers) taken)

theorem takes_nothing {routers' : IndexSet WorkerId}
    (commands : next.commands = peer.commands)
    (below : Below (next.view routers') (peer.view routers)) :
    Takes peer routers next routers' :=
  ⟨[], commands.symm, below⟩

theorem takes_command {routers' : IndexSet WorkerId}
    {command : CoordinationMessage} {rest : List CoordinationMessage}
    (queued : peer.commands = command :: rest) (left : next.commands = rest)
    (below : Below (next.view routers')
      (advance (peer.view routers) command)) :
    Takes peer routers next routers' :=
  ⟨[command], by rw [queued, left, List.singleton_append], below⟩

theorem work_takes (worker : WorkerId) (peer : Peer)
    (routers : IndexSet WorkerId) :
    Takes peer routers (peer.work worker) (peer.adopt routers) := by
  cases isThread : peer.thread with
  | absent | ended =>
      refine takes_nothing ?_ (.inl ?_)
      · simp [Peer.work, isThread]
      · simp [Peer.work, Peer.view, isThread]
  | performing procedure =>
      refine takes_nothing ?_ ?_
      · simp only [Peer.work, isThread]
        split <;> rfl
      · cases procedure with
        | snapshot version =>
            refine .inr ?_
            simp [Peer.work, Peer.view, Peer.adopt, Peer.building, isThread,
              Procedure.removes]
        | reconfig config version =>
            cases removes : (Procedure.reconfig config version).removes
                worker with
            | true =>
                refine .inl ?_
                simp [Peer.work, Peer.view, isThread, removes]
            | false =>
                refine .inr ?_
                simp [Peer.work, Peer.view, Peer.adopt, isThread, removes]
  | awaitsBuild =>
      cases isCommands : peer.commands with
      | nil =>
          refine takes_nothing ?_ (.inl ?_)
          · simp [Peer.work, isThread, isCommands]
          · simp [Peer.work, Peer.view, isThread, isCommands]
      | cons command rest =>
          refine takes_command isCommands ?_ ?_
          · cases command <;>
              simp [Peer.work, Peer.report, isThread, isCommands]
          · cases command with
            | startBuild info =>
                refine .inr ?_
                simp [Peer.work, Peer.report, Peer.view, Peer.adopt,
                  Peer.building, advance, isThread, isCommands]
            | startExecution | snapshot | reconfigure | suspend =>
                refine .inl ?_
                simp [Peer.work, Peer.view, isThread, isCommands]
  | built =>
      cases isCommands : peer.commands with
      | nil =>
          refine takes_nothing ?_ (.inr ?_)
          · simp [Peer.work, isThread, isCommands]
          · simp [Peer.work, Peer.view, Peer.adopt, Peer.building, isThread,
              isCommands]
      | cons command rest =>
          refine takes_command isCommands ?_ ?_
          · cases command <;>
              simp [Peer.work, Peer.report, isThread, isCommands]
          · cases command with
            | startExecution =>
                refine .inr ?_
                simp [Peer.work, Peer.report, Peer.view, Peer.adopt,
                  Peer.building, advance, isThread, isCommands]
            | startBuild | snapshot | reconfigure | suspend =>
                refine .inl ?_
                simp [Peer.work, Peer.view, isThread, isCommands]
  | running =>
      cases isCommands : peer.commands with
      | nil =>
          refine takes_nothing ?_ (.inr ?_)
          · simp [Peer.work, isThread, isCommands]
          · simp [Peer.work, Peer.view, Peer.adopt, Peer.building, isThread,
              isCommands]
      | cons command rest =>
          refine takes_command isCommands ?_ ?_
          · cases command <;>
              simp [Peer.work, Peer.report, isThread, isCommands]
          · cases command with
            | snapshot | reconfigure =>
                refine .inr ?_
                simp [Peer.work, Peer.report, Peer.view, Peer.adopt,
                  Peer.building, advance, isThread, isCommands]
            | startBuild | startExecution | suspend =>
                refine .inl ?_
                simp [Peer.work, Peer.report, Peer.view, isThread, isCommands]

theorem view_of_writing {version : SnapshotVersion}
    (writes : peer.writing = some version) :
    peer.view routers = some routers := by
  unfold Peer.writing at writes
  split at writes
  next isThread => simp [Peer.view, isThread]
  next => cases writes

theorem writing_work {version : SnapshotVersion}
    (writes : (peer.work worker).writing = some version) :
    peer.view routers = some routers ∧ peer.adopt routers = routers ∧
      ∃ rest, peer.commands = .snapshot version :: rest := by
  cases isThread : peer.thread with
  | absent | ended => simp [Peer.work, Peer.writing, isThread] at writes
  | performing procedure =>
      simp only [Peer.work, isThread] at writes
      split at writes <;> simp [Peer.writing] at writes
  | awaitsBuild | built =>
      cases isCommands : peer.commands with
      | nil => simp [Peer.work, Peer.writing, isThread, isCommands] at writes
      | cons command rest =>
          cases command <;>
            simp [Peer.work, Peer.writing, Peer.report, isThread,
              isCommands] at writes
  | running =>
      cases isCommands : peer.commands with
      | nil => simp [Peer.work, Peer.writing, isThread, isCommands] at writes
      | cons command rest =>
          cases command with
          | snapshot found =>
              simp only [Peer.work, Peer.writing, Peer.report, isThread,
                isCommands, Option.some.injEq] at writes
              subst writes
              simp [Peer.view, Peer.adopt, Peer.building, isThread]
          | startBuild | startExecution | reconfigure | suspend =>
              simp [Peer.work, Peer.writing, Peer.report, isThread,
                isCommands] at writes

/-- The worker set a worker goes by once it has done all it was told. -/
def Peer.upcoming (peer : Peer) (routers : IndexSet WorkerId) :
    Option (IndexSet WorkerId) :=
  viewAfter advance (peer.view routers) peer.commands

structure Told (expects : SnapshotVersion → IndexSet WorkerId → Prop)
    (peer : Peer) (routers : IndexSet WorkerId) : Prop where
  judged : Judged advance (Good expects) (peer.view routers) peer.commands
  writing : ∀ version, peer.writing = some version → expects version routers

variable {expects : SnapshotVersion → IndexSet WorkerId → Prop}
  {routers' : IndexSet WorkerId}

theorem Told.takes (told : Told expects peer routers)
    (takes : Takes peer routers next routers')
    (writing : ∀ version, next.writing = some version →
      expects version routers') : Told expects next routers' := by
  obtain ⟨taken, queue, below⟩ := takes
  have judged := told.judged
  rw [queue, judged_append] at judged
  exact ⟨judged_below below judged.2, writing⟩

theorem Takes.upcoming (takes : Takes peer routers next routers') :
    Below (next.upcoming routers') (peer.upcoming routers) := by
  obtain ⟨taken, queue, below⟩ := takes
  unfold Peer.upcoming
  rw [queue, viewAfter_append]
  exact below_viewAfter below

theorem Told.work (told : Told expects peer routers) :
    Told expects (peer.work worker) (peer.adopt routers) := by
  refine told.takes (work_takes worker peer routers) ?_
  intro version writes
  obtain ⟨hasRouters, sameRouters, rest, queue⟩ := writing_work writes
  have judged := told.judged
  rw [queue] at judged
  rw [sameRouters]
  exact judged.1 routers hasRouters

theorem Told.push (told : Told expects peer routers)
    {message : CoordinationMessage}
    (good : Good expects (peer.upcoming routers) message) :
    Told expects { peer with commands := peer.commands ++ [message] }
      routers :=
  ⟨judged_push.mpr ⟨told.judged, good⟩, told.writing⟩

theorem upcoming_push (message : CoordinationMessage) :
    Peer.upcoming { peer with commands := peer.commands ++ [message] } routers =
      advance (peer.upcoming routers) message :=
  viewAfter_append _ _

theorem Told.more {expects' : SnapshotVersion → IndexSet WorkerId → Prop}
    (told : Told expects peer routers)
    (more : ∀ version set, expects version set → expects' version set) :
    Told expects' peer routers :=
  ⟨judged_expects more told.judged,
    fun version writes => more version _ (told.writing version writes)⟩

end

/-! ### What the coordinator goes by -/

def Doing.round : Doing → Option SnapshotVersion
  | .perform (.snapshot version) _ | .serialize version | .commit version _ =>
      some version
  | _ => none

/-- The worker set which belongs to a snapshot: the committed one, or that of
the job while the snapshot is being taken. -/
def Job.Expects (job : Job) (version : SnapshotVersion)
    (set : IndexSet WorkerId) : Prop :=
  (∃ state, (version, state) ∈ job.committed ∧ set = state.activeWorkers) ∨
    job.doing.round = some version ∧ set = job.activeWorkers.keySet

structure Settled (scale : Nat) (config set : IndexSet WorkerId) : Prop where
  items : set.items = List.range scale
  config : config = set

/-- Where the workers of a job stand; `agreed` is that all which a worker was
told amounts to a worker set. -/
def Placed (state : SerializableCoordinatorState)
    (resume : Option SnapshotVersion) (scale : Nat)
    (config : IndexSet WorkerId) (active : IndexMap WorkerId Unit)
    (agreed : WorkerId → IndexSet WorkerId → Prop) : Doing → Prop
  | .setup (.boot from_) new _ =>
      from_ = resume ∧ active.keys = [] ∧ new = state.activeWorkers.items ∧
        Settled scale config state.activeWorkers
  | .build (.boot from_) new stages =>
      from_ = resume ∧ active.keySet = state.activeWorkers ∧
        new = active.keys ∧ Settled scale config active.keySet ∧
        ∀ worker ∈ new, stages worker ≠ .send → agreed worker active.keySet
  | .execution (.boot _) _ _ | .watch | .idle | .finish | .finished
  | .serialize _ =>
      Settled scale config active.keySet ∧
        ∀ worker ∈ active, agreed worker active.keySet
  | .perform (.snapshot _) performing =>
      Settled scale config active.keySet ∧
        (∀ worker ∈ active, agreed worker active.keySet) ∧
        ∀ worker ∈ performing.untold, worker ∈ active
  | .commit _ committed =>
      Settled scale config active.keySet ∧
        (∀ worker ∈ active, agreed worker active.keySet) ∧
        committed.activeWorkers = active.keySet
  | .setup (.rescale wanted) new _ | .reset wanted new _ =>
      wanted.items = List.range scale ∧
        (∃ before, active.keys = List.range before ∧ before ≠ scale) ∧
        new = wanted.items.filter fun worker => decide (worker ∉ active)
  | .build (.rescale wanted) _ _ | .execution (.rescale wanted) _ _ =>
      wanted.items = List.range scale ∧
        ∃ count, active.keys = List.range count ∧ scale ≤ count ∧ 0 < count
  | .perform (.reconfig wanted _) performing =>
      wanted.items = List.range scale ∧
        (∃ count, active.keys = List.range count ∧ scale ≤ count ∧
          0 < count) ∧
        (performing.untold = active.keys ∨ config = wanted) ∧
        ∀ worker ∈ active, worker ∉ performing.untold → agreed worker wanted
  | .tidy _ rest =>
      config.items = List.range scale ∧
        (∃ others, active.keys = List.range scale ++ others ∧
          others.Perm rest) ∧
        ∀ worker ∈ active, agreed worker config

theorem Placed.imp {state : SerializableCoordinatorState}
    {resume : Option SnapshotVersion} {scale : Nat} {config : IndexSet WorkerId}
    {active : IndexMap WorkerId Unit} {doing : Doing}
    {agreed agreed' : WorkerId → IndexSet WorkerId → Prop}
    (placed : Placed state resume scale config active agreed doing)
    (keeps : ∀ worker set, agreed worker set → agreed' worker set) :
    Placed state resume scale config active agreed' doing := by
  cases doing with
  | setup start => cases start <;> exact placed
  | reset => exact placed
  | build start =>
      cases start with
      | boot =>
          obtain ⟨isResume, isSet, isNew, settled, agreed⟩ := placed
          exact ⟨isResume, isSet, isNew, settled,
            fun worker member told => keeps _ _ (agreed worker member told)⟩
      | rescale => exact placed
  | execution start =>
      cases start with
      | boot =>
          exact ⟨placed.1, fun worker member => keeps _ _ (placed.2 worker member)⟩
      | rescale => exact placed
  | watch | idle | finish | finished | serialize =>
      exact ⟨placed.1, fun worker member => keeps _ _ (placed.2 worker member)⟩
  | commit =>
      obtain ⟨settled, agreed, same⟩ := placed
      exact ⟨settled, fun worker member => keeps _ _ (agreed worker member),
        same⟩
  | perform procedure =>
      cases procedure with
      | snapshot =>
          obtain ⟨settled, agreed, isActive⟩ := placed
          exact ⟨settled, fun worker member => keeps _ _ (agreed worker member),
            isActive⟩
      | reconfig =>
          obtain ⟨isWanted, isRange, isConfig, agreed⟩ := placed
          exact ⟨isWanted, isRange, isConfig,
            fun worker member told => keeps _ _ (agreed worker member told)⟩
  | tidy =>
      obtain ⟨isConfig, isRange, agreed⟩ := placed
      exact ⟨isConfig, isRange,
        fun worker member => keeps _ _ (agreed worker member)⟩

namespace Deployment

def Agreed (deployment : Deployment) (worker : WorkerId)
    (set : IndexSet WorkerId) : Prop :=
  Below ((deployment.job.peers worker).upcoming (deployment.routers worker))
    (some set)

/-- A build which restores a snapshot is given the workers of that snapshot. -/
def Restores (state : SerializableCoordinatorState)
    (resume : Option SnapshotVersion) (info : BuildInformation) : Prop :=
  ∀ version, info.resumeSnapshot = some version →
    resume = some version ∧
      IndexSet.ofList info.workerSet = state.activeWorkers

structure Sound (state : SerializableCoordinatorState)
    (resume : Option SnapshotVersion) (deployment : Deployment) : Prop where
  placed : Placed state resume deployment.scale deployment.config
    deployment.job.activeWorkers deployment.Agreed deployment.job.doing
  told : ∀ worker, Told deployment.job.Expects (deployment.job.peers worker)
    (deployment.routers worker)
  taken : ∀ taken ∈ deployment.snapshots,
    deployment.job.Expects taken.version taken.workerSet
  asked : ∀ worker info,
    .startBuild info ∈ (deployment.job.peers worker).commands →
      Restores state resume info
  built : ∀ build ∈ deployment.builds, Restores state resume build.2
  latest : ∀ commit ∈ deployment.job.committed,
    commit.1 < Job.nextVersion deployment.job.snapshotVersion
  distinct : deployment.job.committed.Pairwise fun first second =>
    first.1 < second.1
  round : ∀ version, deployment.job.doing.round = some version →
    version = Job.nextVersion deployment.job.snapshotVersion
  ordered : ∀ commit ∈ deployment.job.committed,
    ∃ scale, commit.2.activeWorkers.items = List.range scale

section

variable {state : SerializableCoordinatorState}
  {resume : Option SnapshotVersion} {deployment next : Deployment}
  {worker : WorkerId}

theorem Agreed.below {set : IndexSet WorkerId}
    (agreed : deployment.Agreed worker set)
    (below : Below ((next.job.peers worker).upcoming (next.routers worker))
      ((deployment.job.peers worker).upcoming (deployment.routers worker))) :
    next.Agreed worker set := by
  obtain none | same := below
  · exact .inl none
  · exact agreed.imp (same.trans ·) (same.trans ·)

theorem Sound.moves (sound : deployment.Sound state resume)
    (sameJob : next.job.doing = deployment.job.doing ∧
      next.job.activeWorkers = deployment.job.activeWorkers ∧
      next.job.committed = deployment.job.committed ∧
      next.job.snapshotVersion = deployment.job.snapshotVersion)
    (sameGoal : next.scale = deployment.scale ∧
      next.config = deployment.config)
    (takes : ∀ worker, Takes (deployment.job.peers worker)
      (deployment.routers worker) (next.job.peers worker)
      (next.routers worker))
    (told : ∀ worker, Told deployment.job.Expects (next.job.peers worker)
      (next.routers worker))
    (taken : ∀ taken ∈ next.snapshots, taken ∈ deployment.snapshots ∨
      deployment.job.Expects taken.version taken.workerSet)
    (built : ∀ build ∈ next.builds, build ∈ deployment.builds ∨
      ∃ worker, .startBuild build.2 ∈
        (deployment.job.peers worker).commands) :
    next.Sound state resume := by
  obtain ⟨sameDoing, sameActive, sameCommitted, sameVersion⟩ := sameJob
  have sameExpects : next.job.Expects = deployment.job.Expects := by
    funext version set
    simp only [Job.Expects, sameDoing, sameActive, sameCommitted]
  exact {
    placed := by
      rw [sameDoing, sameActive, sameGoal.1, sameGoal.2]
      exact sound.placed.imp fun worker set agreed =>
        agreed.below (takes worker).upcoming
    told := by
      rw [sameExpects]
      exact told
    taken := by
      rw [sameExpects]
      intro record member
      exact (taken record member).elim (sound.taken record) id
    asked := by
      intro worker info member
      obtain ⟨took, queue, -⟩ := takes worker
      refine sound.asked worker info ?_
      rw [queue]
      exact List.mem_append_right _ member
    built := by
      intro build member
      rcases built build member with before | ⟨worker, asked⟩
      · exact sound.built build before
      · exact sound.asked worker _ asked
    latest := by
      rw [sameCommitted, sameVersion]
      exact sound.latest
    distinct := by
      rw [sameCommitted]
      exact sound.distinct
    round := by
      rw [sameDoing, sameVersion]
      exact sound.round
    ordered := by
      rw [sameCommitted]
      exact sound.ordered }

theorem Takes.refl (peer : Peer) (routers : IndexSet WorkerId) :
    Takes peer routers peer routers :=
  takes_nothing rfl (.refl _)

/-- One peer changes in something other than its thread and its commands, or
its thread is at an end. -/
theorem Sound.setPeer (sound : deployment.Sound state resume) {peer : Peer}
    {states : States}
    (commands : peer.commands = (deployment.job.peers worker).commands)
    (thread : peer.thread = (deployment.job.peers worker).thread ∨
      peer.view (deployment.routers worker) = none) :
    Sound state resume { deployment with
      job := { deployment.job with states := states }.setPeer worker peer } := by
  have writing (version : SnapshotVersion)
      (writes : peer.writing = some version) :
      (deployment.job.peers worker).writing = some version := by
    obtain same | none := thread
    · simpa [Peer.writing, same] using writes
    · rw [view_of_writing writes] at none
      cases none
  have takes : Takes (deployment.job.peers worker) (deployment.routers worker)
      peer (deployment.routers worker) := by
    refine takes_nothing commands ?_
    obtain same | none := thread
    · exact .inr (by simp [Peer.view, same])
    · exact .inl none
  refine sound.moves ⟨rfl, rfl, rfl, rfl⟩ ⟨rfl, rfl⟩ ?_ ?_
    (fun _ member => .inl member) (fun _ member => .inl member)
  · intro other
    by_cases same : other = worker
    · subst same
      simpa [Job.setPeer] using takes
    · simpa [Job.setPeer, Function.update_of_ne same] using Takes.refl _ _
  · intro other
    by_cases same : other = worker
    · subst same
      simpa [Job.setPeer] using (sound.told other).takes takes
        fun version writes =>
          (sound.told other).writing version (writing version writes)
    · simpa [Job.setPeer, Function.update_of_ne same] using sound.told other

theorem Sound.work (sound : deployment.Sound state resume)
    (worker : WorkerId) :
    (deployment.next (.work worker)).Sound state resume := by
  refine sound.moves ⟨rfl, rfl, rfl, rfl⟩ ⟨rfl, rfl⟩ ?_ ?_ ?_ ?_
  · intro other
    by_cases same : other = worker
    · subst same
      simpa [next, Deployment.work, Job.next, Job.setPeer] using
        work_takes other _ _
    · simpa [next, Deployment.work, Job.next, Job.setPeer,
        Function.update_of_ne same] using Takes.refl _ _
  · intro other
    by_cases same : other = worker
    · subst same
      simpa [next, Deployment.work, Job.next, Job.setPeer] using
        (sound.told other).work
    · simpa [next, Deployment.work, Job.next, Job.setPeer,
        Function.update_of_ne same] using sound.told other
  · intro taken member
    simp only [next, Deployment.work, List.mem_append, List.mem_map,
      Option.mem_toList] at member
    rcases member with before | ⟨version, writes, rfl⟩
    · exact .inl before
    · exact .inr ((sound.told worker).writing version writes)
  · intro build member
    simp only [next, Deployment.work, List.mem_append, List.mem_map,
      Option.mem_toList] at member
    rcases member with before | ⟨info, isBuilding, rfl⟩
    · exact .inl before
    · refine .inr ⟨worker, ?_⟩
      simp only [Peer.building] at isBuilding
      split at isBuilding
      next isCommands =>
        rw [isCommands, Option.some.inj isBuilding]
        exact .head _
      next => cases isBuilding

theorem Sound.turn (sound : deployment.Sound state resume)
    (sameCommitted : next.job.committed = deployment.job.committed ∧
      next.job.snapshotVersion = deployment.job.snapshotVersion)
    (sameLogs : next.snapshots = deployment.snapshots ∧
      next.builds = deployment.builds)
    (rounds : (next.job.doing.round = deployment.job.doing.round ∧
        next.job.activeWorkers = deployment.job.activeWorkers) ∨
      deployment.job.doing.round = none ∧
        ∀ version, next.job.doing.round = some version →
          version = Job.nextVersion deployment.job.snapshotVersion)
    (told : ∀ worker, Told deployment.job.Expects (next.job.peers worker)
      (next.routers worker))
    (asked : ∀ worker info,
      .startBuild info ∈ (next.job.peers worker).commands →
        Restores state resume info)
    (placed : Placed state resume next.scale next.config
      next.job.activeWorkers next.Agreed next.job.doing) :
    next.Sound state resume := by
  have more (version : SnapshotVersion) (set : IndexSet WorkerId)
      (expects : deployment.job.Expects version set) :
      next.job.Expects version set := by
    rcases expects with ⟨state, member, same⟩ | ⟨isRound, same⟩
    · exact .inl ⟨state, sameCommitted.1 ▸ member, same⟩
    · rcases rounds with ⟨sameRound, sameActive⟩ | ⟨noRound, -⟩
      · exact .inr ⟨sameRound.trans isRound, by rw [same, sameActive]⟩
      · rw [noRound] at isRound
        cases isRound
  exact {
    placed := placed
    told := fun worker => (told worker).more more
    taken := by
      rw [sameLogs.1]
      exact fun taken member => more _ _ (sound.taken taken member)
    asked := asked
    built := by
      rw [sameLogs.2]
      exact sound.built
    latest := by
      rw [sameCommitted.1, sameCommitted.2]
      exact sound.latest
    distinct := by
      rw [sameCommitted.1]
      exact sound.distinct
    round := by
      intro version isRound
      rw [sameCommitted.2]
      rcases rounds with ⟨sameRound, -⟩ | ⟨-, isNext⟩
      · exact sound.round version (sameRound.symm.trans isRound)
      · exact isNext version isRound
    ordered := by
      rw [sameCommitted.1]
      exact sound.ordered }

theorem Sound.quiet (sound : deployment.Sound state resume)
    (sameCommitted : next.job.committed = deployment.job.committed ∧
      next.job.snapshotVersion = deployment.job.snapshotVersion)
    (sameLogs : next.snapshots = deployment.snapshots ∧
      next.builds = deployment.builds)
    (rounds : (next.job.doing.round = deployment.job.doing.round ∧
        next.job.activeWorkers = deployment.job.activeWorkers) ∨
      deployment.job.doing.round = none ∧
        ∀ version, next.job.doing.round = some version →
          version = Job.nextVersion deployment.job.snapshotVersion)
    (sameRouters : next.routers = deployment.routers)
    (samePeers : ∀ worker,
      (next.job.peers worker).thread = (deployment.job.peers worker).thread ∧
      (next.job.peers worker).commands =
        (deployment.job.peers worker).commands)
    (placed : Placed state resume next.scale next.config
      next.job.activeWorkers deployment.Agreed next.job.doing) :
    next.Sound state resume := by
  have sameView (worker : WorkerId) : (next.job.peers worker).view
      (next.routers worker) = (deployment.job.peers worker).view
        (deployment.routers worker) := by
    rw [sameRouters]
    simp only [Peer.view, (samePeers worker).1]
  refine sound.turn sameCommitted sameLogs rounds ?_ ?_ ?_
  · intro worker
    refine ⟨?_, fun version writes => ?_⟩
    · rw [sameView, (samePeers worker).2]
      exact (sound.told worker).judged
    · rw [sameRouters]
      refine (sound.told worker).writing version ?_
      simpa [Peer.writing, (samePeers worker).1] using writes
  · intro worker info member
    rw [(samePeers worker).2] at member
    exact sound.asked worker info member
  · refine placed.imp fun worker set agreed => agreed.below (.inr ?_)
    unfold Peer.upcoming
    rw [sameView, (samePeers worker).2]

theorem Sound.tell (sound : deployment.Sound state resume)
    {message : CoordinationMessage}
    (sameCommitted : next.job.committed = deployment.job.committed ∧
      next.job.snapshotVersion = deployment.job.snapshotVersion)
    (sameLogs : next.snapshots = deployment.snapshots ∧
      next.builds = deployment.builds)
    (rounds : next.job.doing.round = deployment.job.doing.round ∧
      next.job.activeWorkers = deployment.job.activeWorkers)
    (sameRouters : next.routers = deployment.routers)
    (isTold : next.job.peers = (deployment.job.send worker message).peers)
    (good : Good deployment.job.Expects
      ((deployment.job.peers worker).upcoming (deployment.routers worker))
      message)
    (restores : ∀ info, message = .startBuild info →
      Restores state resume info)
    (placed : Placed state resume next.scale next.config
      next.job.activeWorkers
      (fun other set =>
        if other = worker then
          Below (advance ((deployment.job.peers worker).upcoming
            (deployment.routers worker)) message) (some set)
        else deployment.Agreed other set)
      next.job.doing) :
    next.Sound state resume := by
  have peers (other : WorkerId) : next.job.peers other =
      if other = worker then { deployment.job.peers worker with
        commands := (deployment.job.peers worker).commands ++ [message] }
      else deployment.job.peers other := by
    simp [isTold, Job.send, Job.setPeer, Function.update_apply]
  refine sound.turn sameCommitted sameLogs (.inl rounds) ?_ ?_ ?_
  · intro other
    rw [peers, sameRouters]
    split
    next same =>
      subst same
      exact (sound.told other).push good
    next => exact sound.told other
  · intro other info member
    rw [peers] at member
    split at member
    next same =>
      rcases List.mem_append.mp member with before | last
      · exact sound.asked worker info before
      · exact restores info (List.mem_singleton.mp last).symm
    next => exact sound.asked other info member
  · refine placed.imp fun other set agreed => ?_
    unfold Agreed
    rw [peers, sameRouters]
    split at agreed
    next same =>
      subst same
      rw [if_pos rfl, upcoming_push]
      exact agreed
    next other => 
      rw [if_neg other]
      exact agreed

theorem range_append_missing (before count : Nat) :
    List.range before ++ ((List.range count).filter fun worker =>
      decide (worker ∉ List.range before)) = List.range (max before count) := by
  rcases Nat.le_total count before with fewer | more
  · have none : ((List.range count).filter fun worker =>
        decide (worker ∉ List.range before)) = [] := by
      rw [List.filter_eq_nil_iff]
      intro worker member
      simp only [List.mem_range] at member
      simp only [List.mem_range, decide_eq_true_eq, not_not]
      omega
    rw [none, List.append_nil, Nat.max_eq_left fewer]
  · obtain ⟨added, rfl⟩ := Nat.exists_eq_add_of_le more
    rw [Nat.max_eq_right more, List.range_add, List.filter_append]
    have none : ((List.range before).filter fun worker =>
        decide (worker ∉ List.range before)) = [] := by
      simp [List.filter_eq_nil_iff]
    have all : ((List.range added).map (before + ·)).filter (fun worker =>
        decide (worker ∉ List.range before)) =
          (List.range added).map (before + ·) := by
      simp [List.filter_eq_self]
    rw [none, all, List.nil_append]

theorem keys_addActive (job : Job) {new : List WorkerId}
    (nodup : (job.activeWorkers.keys ++ new).Nodup) :
    (job.addActive new).activeWorkers.keys = job.activeWorkers.keys ++ new :=
  IndexMap.keys_insertAll _ _ nodup

theorem placed_doing (sound : deployment.Sound state resume) {doing : Doing}
    (isDoing : deployment.job.doing = doing) :
    Placed state resume deployment.scale deployment.config
      deployment.job.activeWorkers deployment.Agreed doing :=
  isDoing ▸ sound.placed

theorem coordinate_eq {doing : Doing}
    (isDoing : deployment.job.doing = doing)
    (other : ∀ config version worker rest, doing ≠
      .perform (.reconfig config version) (.sending (worker :: rest))) :
    deployment.coordinate = deployment := by
  subst isDoing
  unfold Deployment.coordinate
  split
  next isDoing => exact absurd isDoing (other _ _ _ _)
  next => rfl

theorem Sound.between (sound : deployment.Sound state resume) {job : Job}
    (sameCommitted : job.committed = deployment.job.committed ∧
      job.snapshotVersion = deployment.job.snapshotVersion)
    (noRound : deployment.job.doing.round = none ∧ job.doing.round = none)
    (samePeers : ∀ worker,
      (job.peers worker).thread = (deployment.job.peers worker).thread ∧
      (job.peers worker).commands =
        (deployment.job.peers worker).commands)
    (placed : Placed state resume deployment.scale deployment.config
      job.activeWorkers deployment.Agreed job.doing) :
    Sound state resume { deployment with job := job } := by
  refine sound.quiet sameCommitted ⟨rfl, rfl⟩ (.inr ⟨noRound.1, ?_⟩) rfl
    samePeers placed
  intro version isRound
  rw [noRound.2] at isRound
  cases isRound

theorem Sound.setup (sound : deployment.Sound state resume) {job : Job}
    {start : Start} {new rest : List WorkerId}
    (isDoing : deployment.job.doing = .setup start new rest)
    (stepped : deployment.job.coordinate? = some job) :
    Sound state resume { deployment with job := job } := by
  have placed := placed_doing sound isDoing
  have noRound : deployment.job.doing.round = none := by rw [isDoing]; rfl
  simp only [Job.coordinate?, isDoing] at stepped
  cases rest with
  | cons worker rest =>
      obtain rfl := Option.some.inj stepped
      refine sound.between ⟨rfl, rfl⟩ ⟨noRound, rfl⟩ ?_ ?_
      · intro other
        by_cases same : other = worker
        · subst same
          simp [Job.setupComm, Job.setPeer]
        · simp [Job.setupComm, Job.setPeer, Function.update_of_ne same]
      · cases start <;> exact placed
  | nil =>
      cases start with
      | rescale wanted =>
          obtain rfl := Option.some.inj stepped
          exact sound.between ⟨rfl, rfl⟩ ⟨noRound, rfl⟩
            (fun _ => ⟨rfl, rfl⟩) placed
      | boot from_ =>
          obtain rfl := Option.some.inj stepped
          obtain ⟨isResume, noKeys, isNew, settled⟩ := placed
          have keys : (deployment.job.addActive new).activeWorkers.keys =
              new := by
            rw [keys_addActive, noKeys, List.nil_append]
            rw [noKeys, isNew]
            exact state.activeWorkers.nodup
          have keySet : (deployment.job.addActive new).activeWorkers.keySet =
              state.activeWorkers :=
            IndexSet.ext_items (keys.trans isNew)
          refine sound.between ⟨rfl, rfl⟩ ⟨noRound, rfl⟩
            (fun _ => ⟨rfl, rfl⟩) ⟨isResume, keySet, keys.symm, ?_, ?_⟩
          · rw [keySet]
            exact settled
          · exact fun _ _ told => absurd rfl told

theorem Sound.reset (sound : deployment.Sound state resume) {job : Job}
    {wanted : IndexSet WorkerId} {new rest : List WorkerId}
    (isDoing : deployment.job.doing = .reset wanted new rest)
    (stepped : deployment.job.coordinate? = some job) :
    Sound state resume { deployment with job := job } := by
  have placed := placed_doing sound isDoing
  have noRound : deployment.job.doing.round = none := by rw [isDoing]; rfl
  simp only [Job.coordinate?, isDoing] at stepped
  cases rest with
  | cons worker rest =>
      obtain rfl := Option.some.inj stepped
      exact sound.between ⟨rfl, rfl⟩ ⟨noRound, rfl⟩ (fun _ => ⟨rfl, rfl⟩)
        placed
  | nil =>
      obtain rfl := Option.some.inj stepped
      obtain ⟨isWanted, ⟨before, isBefore, moved⟩, isNew⟩ := placed
      have added : deployment.job.activeWorkers.keys ++ new =
          List.range (max before deployment.scale) := by
        rw [isNew, isWanted, ← range_append_missing, isBefore]
        simp only [IndexMap.mem_def, isBefore]
      have keys : (deployment.job.addActive new).activeWorkers.keys =
          List.range (max before deployment.scale) := by
        rw [keys_addActive _ (added ▸ List.nodup_range), added]
      refine sound.between ⟨rfl, rfl⟩ ⟨noRound, rfl⟩ (fun _ => ⟨rfl, rfl⟩)
        ⟨isWanted, _, keys, ?_, ?_⟩ <;> omega

theorem Sound.build (sound : deployment.Sound state resume) {job : Job}
    {start : Start} {new : List WorkerId} {stages : WorkerId → Stage}
    (isDoing : deployment.job.doing = .build start new stages)
    (stepped : deployment.job.coordinate? = some job) :
    Sound state resume { deployment with job := job } := by
  have placed := placed_doing sound isDoing
  have noRound : deployment.job.doing.round = none := by rw [isDoing]; rfl
  simp only [Job.coordinate?, isDoing] at stepped
  split at stepped
  next ready =>
    obtain rfl := Option.some.inj stepped
    refine sound.between ⟨rfl, rfl⟩ ⟨noRound, rfl⟩ (fun _ => ⟨rfl, rfl⟩) ?_
    cases start with
    | rescale wanted => exact placed
    | boot from_ =>
        obtain ⟨-, -, isNew, settled, agreed⟩ := placed
        refine ⟨settled, fun worker member => ?_⟩
        rw [IndexMap.mem_def, ← isNew] at member
        exact agreed worker member (by simp [ready worker member])
  next => cases stepped

theorem Sound.execution (sound : deployment.Sound state resume) {job : Job}
    {start : Start} {new : List WorkerId} {stages : WorkerId → Stage}
    (isDoing : deployment.job.doing = .execution start new stages)
    (stepped : deployment.job.coordinate? = some job) :
    Sound state resume { deployment with job := job } := by
  have placed := placed_doing sound isDoing
  have noRound : deployment.job.doing.round = none := by rw [isDoing]; rfl
  simp only [Job.coordinate?, isDoing] at stepped
  split at stepped
  next =>
    cases start with
    | boot from_ =>
        obtain rfl := Option.some.inj stepped
        exact sound.between ⟨rfl, rfl⟩ ⟨noRound, rfl⟩ (fun _ => ⟨rfl, rfl⟩)
          placed
    | rescale wanted =>
        obtain rfl := Option.some.inj stepped
        refine sound.between ⟨rfl, rfl⟩ ⟨noRound, rfl⟩ (fun _ => ⟨rfl, rfl⟩)
          ⟨placed.1, placed.2, .inl rfl, ?_⟩
        intro worker member told
        exact absurd member told
  next => cases stepped

/-- The last answer to a reconfiguration has come: those who are not wanted stand
behind the others. -/
theorem Sound.beginTidy (sound : deployment.Sound state resume) {job : Job}
    {wanted : IndexSet WorkerId} {version : Version}
    (isDoing : deployment.job.doing =
      .perform (.reconfig wanted version) .returned)
    (stepped : deployment.job.coordinate? = some job) :
    Sound state resume { deployment with job := job } := by
  obtain ⟨isWanted, ⟨count, keys, within, some⟩, told, agreed⟩ :=
    placed_doing sound isDoing
  have noRound : deployment.job.doing.round = none := by rw [isDoing]; rfl
  simp only [Job.coordinate?, isDoing] at stepped
  obtain rfl := Option.some.inj stepped
  have isConfig : deployment.config = wanted := by
    refine told.resolve_left fun nobody => ?_
    rw [keys, Performing.untold] at nobody
    have none := congrArg List.length nobody
    rw [List.length_range, List.length_nil] at none
    omega
  refine sound.between ⟨rfl, rfl⟩ ⟨noRound, rfl⟩ (fun _ => ⟨rfl, rfl⟩)
    ⟨by rw [isConfig, isWanted], ⟨_, ?_, .refl _⟩, ?_⟩
  · rw [keys]
    simp only [IndexSet.mem_def, isWanted]
    rw [range_append_missing, Nat.max_eq_right within]
  · rw [isConfig]
    exact fun worker member => agreed worker member List.not_mem_nil

theorem Sound.tidy (sound : deployment.Sound state resume) {job : Job}
    {version : Version} {rest : List WorkerId}
    (isDoing : deployment.job.doing = .tidy version rest)
    (stepped : deployment.job.coordinate? = some job) :
    Sound state resume { deployment with job := job } := by
  obtain ⟨isConfig, ⟨others, keys, isRest⟩, agreed⟩ :=
    placed_doing sound isDoing
  have noRound : deployment.job.doing.round = none := by rw [isDoing]; rfl
  simp only [Job.coordinate?, isDoing] at stepped
  cases rest with
  | nil =>
      obtain rfl := Option.some.inj stepped
      rw [List.perm_nil.mp isRest, List.append_nil] at keys
      have isSet : deployment.config = deployment.job.activeWorkers.keySet :=
        IndexSet.ext_items (isConfig.trans keys.symm)
      refine sound.between ⟨rfl, rfl⟩ ⟨noRound, rfl⟩ (fun _ => ⟨rfl, rfl⟩)
        ⟨⟨keys, isSet⟩, ?_⟩
      rw [← isSet]
      exact agreed
  | cons worker rest =>
      obtain rfl := Option.some.inj stepped
      have nodup := deployment.job.activeWorkers.nodup
      have member : worker ∈ others := isRest.mem_iff.mpr (.head _)
      have unique : (List.range deployment.scale ++ others).Nodup :=
        keys ▸ nodup
      obtain ⟨-, othersNodup, apart⟩ := List.nodup_append.mp unique
      refine sound.between ⟨rfl, rfl⟩ ⟨noRound, rfl⟩ (fun _ => ⟨rfl, rfl⟩)
        ⟨isConfig, ⟨swapRemoveList (fun other => decide (other = worker)) others,
          ?_, ?_⟩, ?_⟩
      · rw [IndexMap.keys_swapRemove, keys, swapRemoveList_append]
        intro kept isKept
        exact decide_eq_false (apart kept isKept worker member)
      · refine (swapRemoveList_perm _ _ ?_).trans ?_
        · refine othersNodup.imp fun different isFirst => ?_
          have first := of_decide_eq_true isFirst
          exact decide_eq_false fun second =>
            different (first.trans second.symm)
        · have restNodup := isRest.nodup_iff.mp othersNodup
          have filtered := isRest.filter fun other => !decide (other = worker)
          rw [List.filter_cons_of_neg (by simp)] at filtered
          refine filtered.trans (.of_eq (List.filter_eq_self.mpr ?_))
          intro other isOther
          have different : other ≠ worker := by
            rintro rfl
            exact (List.nodup_cons.mp restNodup).1 isOther
          simp [different]
      · intro other isActive
        exact agreed other (IndexMap.mem_swapRemove.mp isActive).1

theorem Sound.tells (sound : deployment.Sound state resume)
    {procedure : Procedure} {worker : WorkerId} {rest : List WorkerId}
    (isDoing : deployment.job.doing =
      .perform procedure (.sending (worker :: rest))) :
    Sound state resume { deployment.coordinate with
      job := { deployment.job.send worker procedure.command with
        doing := .perform procedure (.sending rest) } } := by
  have placed := placed_doing sound isDoing
  cases procedure with
  | snapshot version =>
      rw [coordinate_eq isDoing (by simp)]
      obtain ⟨settled, agreed, isActive⟩ := placed
      have isRound : deployment.job.doing.round = some version := by
        rw [isDoing]
        rfl
      refine sound.tell ⟨rfl, rfl⟩ ⟨rfl, rfl⟩ ⟨isRound.symm, rfl⟩ rfl rfl ?_
        (by simp [Procedure.command]) ⟨settled, ?_, ?_⟩
      · intro set isSet
        have known := agreed worker (isActive worker (.head _))
        rcases known with none | same
        · rw [none] at isSet
          cases isSet
        · rw [same] at isSet
          exact .inr ⟨isRound, (Option.some.inj isSet).symm⟩
      · intro other member
        dsimp only
        split
        next same =>
          subst same
          exact agreed other member
        next => exact agreed other member
      · exact fun other member => isActive other (.tail _ member)
  | reconfig wanted version =>
      obtain ⟨isWanted, isRange, -, agreed⟩ := placed
      have isCoordinate : deployment.coordinate =
          { deployment with config := wanted } := by
        simp only [Deployment.coordinate, isDoing]
      have noRound : deployment.job.doing.round = none := by
        rw [isDoing]
        rfl
      rw [isCoordinate]
      refine sound.tell ⟨rfl, rfl⟩ ⟨rfl, rfl⟩ ⟨noRound.symm, rfl⟩ rfl rfl
        trivial (by simp [Procedure.command])
        ⟨isWanted, isRange, .inr rfl, ?_⟩
      intro other member told
      split
      next same =>
        generalize Peer.upcoming _ _ = upcoming
        cases upcoming with
        | none => exact .inl rfl
        | some => exact .inr rfl
      next different =>
        refine agreed other member fun untold => ?_
        exact (List.mem_cons.mp untold).elim different told

theorem Sound.waits (sound : deployment.Sound state resume)
    {procedure : Procedure} {performing performing' : Performing}
    {states : States}
    (isDoing : deployment.job.doing = .perform procedure performing)
    (nobody : performing.untold = [] ∧ performing'.untold = []) :
    Sound state resume { deployment with
      job := { deployment.job with
        states := states, doing := .perform procedure performing' } } := by
  have placed := placed_doing sound isDoing
  refine sound.quiet ⟨rfl, rfl⟩ ⟨rfl, rfl⟩ (.inl ⟨?_, rfl⟩) rfl
    (fun _ => ⟨rfl, rfl⟩) ?_
  · rw [isDoing]
    cases procedure <;> rfl
  · cases procedure with
    | snapshot =>
        obtain ⟨settled, agreed, -⟩ := placed
        refine ⟨settled, agreed, ?_⟩
        rw [nobody.2]
        nofun
    | reconfig =>
        simp only [Placed, nobody] at placed ⊢
        exact placed

theorem Sound.performs (sound : deployment.Sound state resume)
    {procedure : Procedure} {performing performing' : Performing}
    {states : States}
    (isDoing : deployment.job.doing = .perform procedure performing)
    (steps : Performing.Steps procedure deployment.job.states performing
      states performing') :
    Sound state resume { deployment.coordinate with
      job := { (match performing with
        | .sending (worker :: _) => deployment.job.send worker
            procedure.command
        | _ => deployment.job) with
        states := states, doing := .perform procedure performing' } } := by
  cases steps with
  | tell => exact sound.tells isDoing
  | awaitStarted | started | awaitRunning | running =>
      rw [coordinate_eq isDoing (by simp)]
      exact sound.waits isDoing ⟨rfl, rfl⟩

theorem Sound.commit (sound : deployment.Sound state resume)
    {version : SnapshotVersion} {committed : SerializableCoordinatorState}
    (isDoing : deployment.job.doing = .commit version committed) :
    Sound state resume { deployment with
      job := { deployment.job with
        committed := deployment.job.committed ++ [(version, committed)]
        snapshotVersion := some version
        doing := .finish } } := by
  obtain ⟨settled, agreed, same⟩ := placed_doing sound isDoing
  have isRound : deployment.job.doing.round = some version := by
    rw [isDoing]
    rfl
  have isNext := sound.round version isRound
  have more (found : SnapshotVersion) (set : IndexSet WorkerId)
      (expects : deployment.job.Expects found set) :
      Job.Expects { deployment.job with
        committed := deployment.job.committed ++ [(version, committed)]
        snapshotVersion := some version
        doing := .finish } found set := by
    rcases expects with ⟨state, member, isSet⟩ | ⟨round, isSet⟩
    · exact .inl ⟨state, List.mem_append_left _ member, isSet⟩
    · obtain rfl := Option.some.inj (isRound.symm.trans round)
      exact .inl ⟨committed, by simp, isSet.trans same.symm⟩
  exact {
    placed := ⟨settled, agreed⟩
    told := fun worker => (sound.told worker).more more
    taken := fun taken member => more _ _ (sound.taken taken member)
    asked := sound.asked
    built := sound.built
    latest := by
      intro commit member
      rcases List.mem_append.mp member with before | last
      · have earlier := sound.latest commit before
        rw [← isNext] at earlier
        exact Nat.lt_succ_of_lt earlier
      · rw [List.mem_singleton.mp last]
        exact Nat.lt_succ_self version
    distinct := by
      refine List.pairwise_append.mpr ⟨sound.distinct,
        List.pairwise_singleton _ _, ?_⟩
      intro commit member last isLast
      rw [List.mem_singleton.mp isLast]
      exact (sound.latest commit member).trans_eq isNext.symm
    round := nofun
    ordered := by
      intro commit member
      rcases List.mem_append.mp member with before | last
      · exact sound.ordered commit before
      · rw [List.mem_singleton.mp last]
        exact ⟨_, (congrArg IndexSet.items same).trans settled.items⟩ }

theorem Sound.coordinate (sound : deployment.Sound state resume)
    {job : Job} (stepped : deployment.job.coordinate? = some job) :
    Sound state resume { deployment.coordinate with job := job } := by
  cases isDoing : deployment.job.doing with
  | setup start new rest =>
      rw [coordinate_eq isDoing (by simp)]
      exact sound.setup isDoing stepped
  | reset wanted new rest =>
      rw [coordinate_eq isDoing (by simp)]
      exact sound.reset isDoing stepped
  | build start new stages =>
      rw [coordinate_eq isDoing (by simp)]
      exact sound.build isDoing stepped
  | execution start new stages =>
      rw [coordinate_eq isDoing (by simp)]
      exact sound.execution isDoing stepped
  | tidy version rest =>
      rw [coordinate_eq isDoing (by simp)]
      exact sound.tidy isDoing stepped
  | watch =>
      rw [coordinate_eq isDoing (by simp)]
      have placed := placed_doing sound isDoing
      simp only [Job.coordinate?, isDoing] at stepped
      obtain rfl := Option.some.inj stepped
      exact sound.between ⟨rfl, rfl⟩ ⟨by rw [isDoing]; rfl, rfl⟩
        (fun _ => ⟨rfl, rfl⟩) placed
  | idle =>
      rw [coordinate_eq isDoing (by simp)]
      have placed := placed_doing sound isDoing
      simp only [Job.coordinate?, isDoing] at stepped
      split at stepped
      next =>
        obtain rfl := Option.some.inj stepped
        exact sound.between ⟨rfl, rfl⟩ ⟨by rw [isDoing]; rfl, rfl⟩
          (fun _ => ⟨rfl, rfl⟩) placed
      next => cases stepped
  | finish =>
      rw [coordinate_eq isDoing (by simp)]
      have placed := placed_doing sound isDoing
      have noRound : deployment.job.doing.round = none := by
        rw [isDoing]
        rfl
      simp only [Job.coordinate?, isDoing] at stepped
      obtain rfl := Option.some.inj stepped
      refine sound.between ⟨rfl, rfl⟩ ⟨noRound, ?_⟩ (fun _ => ⟨rfl, rfl⟩) ?_
      · dsimp only
        split <;> rfl
      · dsimp only
        split <;> exact placed
  | finished =>
      simp only [Job.coordinate?, isDoing] at stepped
      cases stepped
  | serialize version =>
      rw [coordinate_eq isDoing (by simp)]
      simp only [Job.coordinate?, isDoing] at stepped
      obtain rfl := Option.some.inj stepped
      obtain ⟨settled, agreed⟩ := placed_doing sound isDoing
      exact sound.quiet ⟨rfl, rfl⟩ ⟨rfl, rfl⟩
        (.inl ⟨by rw [isDoing]; rfl, rfl⟩) rfl (fun _ => ⟨rfl, rfl⟩)
        ⟨settled, agreed, rfl⟩
  | commit version committed =>
      rw [coordinate_eq isDoing (by simp)]
      simp only [Job.coordinate?, isDoing] at stepped
      obtain rfl := Option.some.inj stepped
      exact sound.commit isDoing
  | perform procedure performing =>
      simp only [Job.coordinate?, isDoing] at stepped
      have performs : ∀ {job : Job}, ((performing.step? procedure
          deployment.job.states).map fun turned =>
            let told := match performing with
              | .sending (worker :: _) =>
                  deployment.job.send worker procedure.command
              | _ => deployment.job
            { told with
              states := turned.1
              doing := .perform procedure turned.2 }) = some job →
          Sound state resume { deployment.coordinate with job := job } := by
        intro job performed
        obtain ⟨⟨states', performing'⟩, isStep, rfl⟩ :=
          Option.map_eq_some_iff.mp performed
        exact sound.performs isDoing (Performing.steps_of_step? isStep)
      cases performing with
      | returned =>
          rw [coordinate_eq isDoing (by simp)]
          cases procedure with
          | snapshot version =>
              obtain ⟨settled, agreed, -⟩ := placed_doing sound isDoing
              obtain rfl := Option.some.inj stepped
              exact sound.quiet ⟨rfl, rfl⟩ ⟨rfl, rfl⟩
                (.inl ⟨by rw [isDoing]; rfl, rfl⟩) rfl
                (fun _ => ⟨rfl, rfl⟩) ⟨settled, agreed⟩
          | reconfig wanted version =>
              refine sound.beginTidy isDoing ?_
              simp only [Job.coordinate?, isDoing]
              exact stepped
      | sending rest | awaitStarted receiver | registerRunning
      | awaitRunning receiver =>
          refine performs ?_
          cases procedure <;> exact stepped

/-- A worker which is started is told something, or the coordinator goes on with
its start. -/
theorem pollStage_cases (job sent : Job) (worker : WorkerId)
    (phase : WorkerPhase) (stage : Stage) :
    (stage = .send ∧
      job.pollStage sent worker phase stage = (sent, .register)) ∨
    stage ≠ .send ∧ ∃ states stage',
      job.pollStage sent worker phase stage =
        ({ job with states := states }, stage') := by
  cases stage with
  | send => exact .inl ⟨rfl, rfl⟩
  | register => exact .inr ⟨nofun, _, _, rfl⟩
  | await receiver =>
      refine .inr ⟨nofun, job.states, ?_⟩
      simp only [Job.pollStage]
      split
      · exact ⟨_, rfl⟩
      · exact ⟨_, rfl⟩
  | ready => exact .inr ⟨nofun, job.states, _, rfl⟩

theorem Sound.pollBuild (sound : deployment.Sound state resume)
    {start : Start} {new : List WorkerId} {stages : WorkerId → Stage}
    (isDoing : deployment.job.doing = .build start new stages) :
    Sound state resume { deployment with
      job := deployment.job.poll worker } := by
  have placed := placed_doing sound isDoing
  have noRound : deployment.job.doing.round = none := by rw [isDoing]; rfl
  unfold Job.poll
  simp only [isDoing]
  rcases pollStage_cases deployment.job (deployment.job.startBuild start worker)
    worker .buildComplete (stages worker) with
    ⟨isSend, polled⟩ | ⟨notSend, states, stage, polled⟩
  · rw [polled]
    refine sound.tell ⟨rfl, rfl⟩ ⟨rfl, rfl⟩ ⟨noRound.symm, rfl⟩ rfl rfl trivial
      ?_ ?_
    · intro info isInfo version resumes
      cases start with
      | rescale wanted =>
          injection isInfo with isInfo
          subst isInfo
          cases resumes
      | boot from_ =>
          obtain ⟨isResume, isSet, -⟩ := placed
          injection isInfo with isInfo
          subst isInfo
          exact ⟨isResume.symm.trans resumes,
            (IndexSet.ofList_items deployment.job.activeWorkers.keySet).trans
              isSet⟩
    · cases start with
      | rescale wanted => exact placed
      | boot from_ =>
          obtain ⟨isResume, isSet, isNew, settled, agreed⟩ := placed
          refine ⟨isResume, isSet, isNew, settled, ?_⟩
          intro other member told
          split
          next => exact .inr (congrArg some (IndexSet.ofList_items
              deployment.job.activeWorkers.keySet))
          next different =>
            rw [Function.update_of_ne different] at told
            exact agreed other member told
  · rw [polled]
    refine sound.between ⟨rfl, rfl⟩ ⟨noRound, rfl⟩ (fun _ => ⟨rfl, rfl⟩) ?_
    cases start with
    | rescale wanted => exact placed
    | boot from_ =>
        obtain ⟨isResume, isSet, isNew, settled, agreed⟩ := placed
        refine ⟨isResume, isSet, isNew, settled, ?_⟩
        intro other member told
        by_cases same : other = worker
        · subst same
          exact agreed other member notSend
        · rw [Function.update_of_ne same] at told
          exact agreed other member told

theorem Sound.pollExecution (sound : deployment.Sound state resume)
    {start : Start} {new : List WorkerId} {stages : WorkerId → Stage}
    (isDoing : deployment.job.doing = .execution start new stages) :
    Sound state resume { deployment with
      job := deployment.job.poll worker } := by
  have placed := placed_doing sound isDoing
  have noRound : deployment.job.doing.round = none := by rw [isDoing]; rfl
  unfold Job.poll
  simp only [isDoing]
  rcases pollStage_cases deployment.job
    (deployment.job.send worker .startExecution) worker .running
    (stages worker) with ⟨-, polled⟩ | ⟨-, states, stage, polled⟩
  · rw [polled]
    refine sound.tell ⟨rfl, rfl⟩ ⟨rfl, rfl⟩ ⟨noRound.symm, rfl⟩ rfl rfl trivial
      nofun ?_
    cases start with
    | rescale wanted => exact placed
    | boot from_ =>
        obtain ⟨settled, agreed⟩ := placed
        refine ⟨settled, fun other member => ?_⟩
        dsimp only
        split
        next same =>
          subst same
          exact agreed other member
        next => exact agreed other member
  · rw [polled]
    refine sound.between ⟨rfl, rfl⟩ ⟨noRound, rfl⟩ (fun _ => ⟨rfl, rfl⟩) ?_
    cases start <;> exact placed

theorem Sound.poll (sound : deployment.Sound state resume)
    (worker : WorkerId) :
    (deployment.next (.poll worker)).Sound state resume := by
  cases isDoing : deployment.job.doing with
  | build start new stages => exact sound.pollBuild isDoing
  | execution start new stages => exact sound.pollExecution isDoing
  | setup | reset | watch | idle | perform | serialize | commit | tidy | finish
  | finished => simpa [next, Job.next, Job.poll, isDoing] using sound

theorem Sound.request (sound : deployment.Sound state resume)
    {operation : RequestOperation} (isIdle : deployment.job.doing = .idle) :
    (deployment.next (.request operation)).Sound state resume := by
  obtain ⟨settled, agreed⟩ := placed_doing sound isIdle
  have noRound : deployment.job.doing.round = none := by rw [isIdle]; rfl
  have keys : deployment.job.activeWorkers.keys = List.range deployment.scale :=
    settled.items
  cases operation with
  | snapshot =>
      refine sound.quiet ⟨rfl, rfl⟩ ⟨rfl, rfl⟩ (.inr ⟨noRound, ?_⟩) rfl
        (fun _ => ⟨rfl, rfl⟩) ⟨settled, agreed, fun worker => id⟩
      exact fun version isRound => (Option.some.inj isRound).symm
  | scale desired =>
      simp only [next, Job.next, Job.handle]
      have length : deployment.job.activeWorkers.keys.length =
          deployment.scale := by
        rw [keys, List.length_range]
      split
      next same =>
        refine sound.quiet ⟨rfl, rfl⟩ ⟨rfl, rfl⟩ (.inr ⟨noRound, fun _ isRound => by cases isRound⟩) rfl
          (fun _ => ⟨rfl, rfl⟩) ?_
        rw [same.trans length]
        exact ⟨settled, agreed⟩
      next different =>
        refine sound.quiet ⟨rfl, rfl⟩ ⟨rfl, rfl⟩ (.inr ⟨noRound, fun _ isRound => by cases isRound⟩) rfl
          (fun _ => ⟨rfl, rfl⟩)
          ⟨IndexSet.items_ofList List.nodup_range, ⟨_, keys, ?_⟩, rfl⟩
        exact fun same => different (same.symm.trans length.symm)

theorem Sound.step {event : Job.Event}
    (sound : deployment.Sound state resume)
    (permitted : deployment.allowed event) :
    (deployment.next event).Sound state resume := by
  cases event with
  | coordinate =>
      obtain ⟨job, stepped⟩ := Option.isSome_iff_exists.mp permitted
      have isNext : deployment.next .coordinate =
          { deployment.coordinate with job := job } := by
        simp only [next, Job.next, stepped, Option.getD_some]
      rw [isNext]
      exact sound.coordinate stepped
  | poll worker => exact sound.poll worker
  | request operation =>
      cases isDoing : deployment.job.doing with
      | idle => exact sound.request isDoing
      | setup | reset | build | execution | watch | perform | serialize | commit
      | tidy | finish | finished =>
          simp only [allowed, Job.allowed, isDoing] at permitted
  | spawn worker => exact sound.setPeer rfl (.inr rfl)
  | work worker => exact sound.work worker
  | complete worker => exact sound.setPeer rfl (.inr rfl)
  | leave worker =>
      simp only [next, Job.next]
      split
      next => exact sound
      next => exact sound.setPeer rfl (.inl rfl)
  | receive worker task =>
      simp only [next, Job.next, Peer.receive]
      split
      next => exact sound.setPeer rfl (.inl rfl)
      next => exact sound.setPeer rfl (.inl rfl)
  | apply worker task =>
      simp only [next, Job.next]
      split
      next => exact sound.setPeer rfl (.inl rfl)
      next => exact sound

theorem sound_boot {scale : Nat}
    (ordered : state.activeWorkers.items = List.range scale) :
    (boot state resume).Sound state resume where
  placed := ⟨rfl, rfl, rfl, by
    change state.activeWorkers.items =
      List.range state.activeWorkers.items.length
    rw [ordered, List.length_range], rfl⟩
  told _ := ⟨trivial, nofun⟩
  taken := nofun
  asked := nofun
  built := nofun
  latest := nofun
  distinct := .nil
  round := nofun
  ordered := nofun

theorem Sound.run {scale : Nat}
    (ordered : state.activeWorkers.items = List.range scale)
    (life : Reaches Deployment.step allowed (boot state resume) deployment) :
    deployment.Sound state resume := by
  refine life.invariant _ (sound_boot ordered) ?_
  intro deployment event next _ sound permitted stepped
  obtain rfl := Except.ok.inj stepped
  exact sound.step permitted

end

end Deployment

theorem Persisted.ordered {resume : Option SnapshotVersion}
    {state : SerializableCoordinatorState} (persisted : Persisted resume state) :
    ∃ scale, state.activeWorkers.items = List.range scale := by
  induction persisted with
  | nothing => exact ⟨0, rfl⟩
  | committed before life member ih =>
      obtain ⟨scale, ordered⟩ := ih
      exact (Deployment.Sound.run ordered life).ordered _ member

/-- The worker set of a committed snapshot is the one it was taken with. -/
theorem Deployment.Sound.taken_with {resume : Option SnapshotVersion}
    {state : SerializableCoordinatorState} {deployment : Deployment}
    (sound : deployment.Sound state resume)
    {commit : SnapshotVersion × SerializableCoordinatorState}
    (isCommit : commit ∈ deployment.job.committed) {taken : SnapshotTaken}
    (isTaken : taken ∈ deployment.snapshots)
    (same : taken.version = commit.1) :
    taken.workerSet = commit.2.activeWorkers := by
  have expects := sound.taken taken isTaken
  rw [same] at expects
  rcases expects with ⟨found, member, isSet⟩ | ⟨isRound, -⟩
  · have versions : (deployment.job.committed.map Prod.fst).Nodup :=
      List.pairwise_map.mpr (sound.distinct.imp ne_of_lt)
    have isFound : (commit.1, found) = commit :=
      List.inj_on_of_nodup_map versions member isCommit rfl
    rw [isSet, ← isFound]
  · have isNext := sound.round commit.1 isRound
    exact absurd (sound.latest commit isCommit) (isNext.symm ▸ lt_irrefl _)

/-- Between requests the workers are those of the requested scale, in their
order, and of the last `Reconfigure`.  A job which is restarted from a committed
snapshot builds each worker of it with the worker set which the routers had when
the snapshot was taken. -/
theorem Persisted.placement_kept {resume : Option SnapshotVersion}
    {state : SerializableCoordinatorState} (persisted : Persisted resume state)
    {deployment : Deployment}
    (life : Reaches Deployment.step Deployment.allowed
      (Deployment.boot state resume) deployment) :
    (deployment.job.doing = .idle →
      deployment.job.activeWorkers.keys = List.range deployment.scale ∧
      deployment.config = deployment.job.activeWorkers.keySet) ∧
    ∀ commit ∈ deployment.job.committed, ∀ restarted : Deployment,
      Reaches Deployment.step Deployment.allowed
        (Deployment.boot commit.2 (some commit.1)) restarted →
      (∀ from_ new stages, restarted.job.doing = .build (.boot from_) new stages →
        from_ = some commit.1 ∧ new = commit.2.activeWorkers.items) ∧
      ∀ taken ∈ deployment.snapshots, taken.version = commit.1 →
      ∀ build ∈ restarted.builds, build.2.resumeSnapshot = some commit.1 →
        IndexSet.ofList build.2.workerSet = taken.workerSet ∧
        ∀ (Key : Type) (partition : Key → IndexSet WorkerId → WorkerId) key,
          partition key (IndexSet.ofList build.2.workerSet) =
            partition key taken.workerSet := by
  obtain ⟨scale, ordered⟩ := persisted.ordered
  have sound := Deployment.Sound.run ordered life
  refine ⟨fun isIdle => ?_, fun commit isCommit restarted again => ⟨?_, ?_⟩⟩
  · obtain ⟨settled, -⟩ := Deployment.placed_doing sound isIdle
    exact ⟨settled.items, settled.config⟩
  all_goals
    obtain ⟨_, ordered'⟩ := (persisted.committed life isCommit).ordered
    have sound' := Deployment.Sound.run ordered' again
  · intro from_ new stages isDoing
    obtain ⟨isResume, isSet, isNew, -⟩ :=
      Deployment.placed_doing sound' isDoing
    exact ⟨isResume, isNew.trans (congrArg IndexSet.items isSet)⟩
  · intro taken isTaken same build isBuild resumes
    have isSet := (sound'.built build isBuild _ resumes).2.trans
      (sound.taken_with isCommit isTaken same).symm
    exact ⟨isSet, fun Key partition key => congrArg (partition key) isSet⟩

/-- Each worker does one thing, and what it reports is taken in. -/
def pairRound : List Job.Event :=
  [.work 0, .work 1, .receive 0 0, .apply 0 0, .receive 1 0, .apply 1 0]

def grownTrace : List Job.Event :=
  .replicate 4 .coordinate ++ [.request (.scale 2)] ++
    .replicate 6 .coordinate ++ [.spawn 0, .spawn 1] ++
    [.poll 0, .poll 1, .poll 0, .poll 1] ++ pairRound ++
    [.poll 0, .poll 1, .coordinate] ++
    [.poll 0, .poll 1, .poll 0, .poll 1] ++ pairRound ++
    [.poll 0, .poll 1] ++ .replicate 4 .coordinate ++ pairRound ++
    [.coordinate, .coordinate] ++ pairRound ++ .replicate 4 .coordinate

def writtenTrace : List Job.Event :=
  [.request .snapshot] ++ .replicate 3 .coordinate ++ pairRound ++
    [.coordinate, .coordinate] ++ pairRound ++ .replicate 5 .coordinate

def written : Deployment :=
  replay Deployment.step (Deployment.boot {} none) (grownTrace ++ writtenTrace)

theorem written_reached : Reaches Deployment.step Deployment.allowed
    (Deployment.boot {} none) written :=
  Follows.reaches _ .refl (by decide +kernel)

theorem written_wrote :
    written.job.committed ≠ [] ∧ written.snapshots ≠ [] := by
  decide +kernel

def writtenCommit : SnapshotVersion × SerializableCoordinatorState :=
  written.job.committed.head written_wrote.1

def rebuiltTrace : List Job.Event :=
  .replicate 3 .coordinate ++ [.spawn 0, .poll 0, .work 0]

def rebuilt : Deployment :=
  replay Deployment.step
    (Deployment.boot writtenCommit.2 (some writtenCommit.1)) rebuiltTrace

theorem rebuilt_built : rebuilt.builds ≠ [] := by
  decide +kernel

theorem written_placement_kept :
    IndexSet.ofList (rebuilt.builds.head rebuilt_built).2.workerSet =
        (written.snapshots.head written_wrote.2).workerSet ∧
      (written.snapshots.head written_wrote.2).workerSet.items = [0, 1] := by
  have again : Reaches Deployment.step Deployment.allowed
      (Deployment.boot writtenCommit.2 (some writtenCommit.1)) rebuilt :=
    Follows.reaches rebuiltTrace .refl (by decide +kernel)
  obtain ⟨-, kept⟩ :=
    (Persisted.placement_kept .nothing written_reached).2 writtenCommit
      (List.head_mem _) rebuilt again
  obtain ⟨same, -⟩ := kept (written.snapshots.head written_wrote.2)
    (List.head_mem _) (by decide +kernel) (rebuilt.builds.head rebuilt_built)
    (List.head_mem _) (by decide +kernel)
  exact ⟨same, by decide +kernel⟩

end Malstrom.Coordinator
