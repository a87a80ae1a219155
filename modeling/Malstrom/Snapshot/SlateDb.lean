import Malstrom.Data.Journal
import Malstrom.Data.MessagePack
import Malstrom.Snapshot.ObjectStore
import Malstrom.Snapshot.State

namespace Malstrom.Snapshot

open Data

/-! Snapshots in an object store: a SlateDB of its own for every worker and
version, and the log of the committed versions, which is held in memory and
written as one object. -/

abbrev SnapshotVersion := UInt64

structure Commits where
  commits : List SnapshotVersion
  commitsPath : Path
  deriving DecidableEq

inductive OpenCommitsError where
  | objectStore (error : StoreError)
  | decoding
  deriving DecidableEq

inductive CommitError where
  | objectStore (error : StoreError)
  deriving DecidableEq

namespace Commits

/-- `Commits::open`: the commits of the store, none if there is no object. -/
def openAt (codec : Codec (List SnapshotVersion)) (basePath : Path)
    (store : ObjectStore) (read : Read) : Except OpenCommitsError Commits :=
  let commitsPath := basePath.child "commits"
  match store.get commitsPath read with
  | .ok file =>
      match file.bytes with
      | .ok content =>
          match codec.fromSlice content with
          | some commits => .ok ⟨commits, commitsPath⟩
          | none => .error .decoding
      | .error error => .error (.objectStore error)
  | .error .notFound => .ok ⟨[], commitsPath⟩
  | .error error => .error (.objectStore error)

def isCommited (commits : Commits) (version : SnapshotVersion) : Bool :=
  commits.commits.contains version

def getLastCommited (commits : Commits) : Option SnapshotVersion :=
  commits.commits.getLast?

/-- The version is in the log of the memory before the log is put. -/
def commit (codec : Codec (List SnapshotVersion)) (commits : Commits)
    (store : ObjectStore) (version : SnapshotVersion) (request : Request) :
    Commits × ObjectStore × Except CommitError Unit :=
  let commits := { commits with commits := commits.commits ++ [version] }
  let encoded := codec.toVec commits.commits
  match store.put commits.commitsPath encoded request with
  | (store, .ok ()) => (commits, store, .ok ())
  | (store, .error error) => (commits, store, .error (.objectStore error))

end Commits

structure SlateDbBackend where
  basePath : Path
  commits : Commits
  deriving DecidableEq

structure SlateDbClient where
  db : Path
  deriving DecidableEq

inductive BackendInitError where
  | tokioRuntime
  | openCommits (error : OpenCommitsError)
  deriving DecidableEq

inductive BackendPanic where
  | deleteDir (error : StoreError)
  | openDb
  | commitVersion (error : CommitError)
  deriving DecidableEq

/-- What `Db::open` does in its directory, and whether it succeeds. -/
structure Opening where
  changes : List Change
  succeeds : Bool
  deriving DecidableEq

namespace SlateDbBackend

def new (codec : Codec (List SnapshotVersion)) (store : ObjectStore)
    (basePath : Path) (runtime : Bool) (read : Read) :
    Except BackendInitError SlateDbBackend :=
  if runtime then
    match Commits.openAt codec basePath store read with
    | .ok commits => .ok ⟨basePath, commits⟩
    | .error error => .error (.openCommits error)
  else .error .tokioRuntime

def lastCommited (backend : SlateDbBackend) : Option SnapshotVersion :=
  backend.commits.getLastCommited

def dbPath (backend : SlateDbBackend) (worker : WorkerId)
    (version : SnapshotVersion) : Path :=
  ((backend.basePath.child "snapshots").child s!"worker{worker}").child
    s!"version{version}"

def openDb (store : ObjectStore) (dbPath : Path) (opening : Opening) :
    ObjectStore × Except BackendPanic SlateDbClient :=
  (store.applyAll dbPath opening.changes,
    if opening.succeeds then .ok ⟨dbPath⟩ else .error .openDb)

/-- A version which is not committed gets a clean directory. -/
def forVersion (backend : SlateDbBackend) (store : ObjectStore)
    (worker : WorkerId) (version : SnapshotVersion) (deletion : Deletion)
    (opening : Opening) : ObjectStore × Except BackendPanic SlateDbClient :=
  let dbPath := backend.dbPath worker version
  if backend.commits.isCommited version then openDb store dbPath opening
  else
    match store.deleteDir dbPath deletion with
    | (store, .ok ()) | (store, .error .notFound) => openDb store dbPath opening
    | (store, .error error) => (store, .error (.deleteDir error))

def commitVersion (codec : Codec (List SnapshotVersion))
    (backend : SlateDbBackend) (store : ObjectStore) (version : SnapshotVersion)
    (request : Request) :
    SlateDbBackend × ObjectStore × Except BackendPanic Unit :=
  match backend.commits.commit codec store version request with
  | (commits, store, .ok ()) => ({ backend with commits := commits }, store, .ok ())
  | (commits, store, .error error) =>
      ({ backend with commits := commits }, store, .error (.commitVersion error))

end SlateDbBackend

/-- A backend and the object store it works on.  The clones of a backend share
its log. -/
structure Storage where
  store : ObjectStore
  backend : SlateDbBackend
  deriving DecidableEq

namespace Storage

/-- The calls of the job, and what the databases of the clients do by themselves. -/
inductive Event where
  | commit (version : SnapshotVersion) (request : Request)
  | reopen (read : Read)
  | forVersion (worker : WorkerId) (version : SnapshotVersion)
      (deletion : Deletion) (opening : Opening)
  | client (worker : WorkerId) (version : SnapshotVersion)
      (changes : List Change)

variable (codec : Codec (List SnapshotVersion))

def step (storage : Storage) : Event → Storage
  | .commit version request =>
      let called := storage.backend.commitVersion codec storage.store version request
      ⟨called.2.1, called.1⟩
  | .reopen read =>
      match Commits.openAt codec storage.backend.basePath storage.store read with
      | .ok commits =>
          { storage with backend := { storage.backend with commits := commits } }
      | .error _ => storage
  | .forVersion worker version deletion opening =>
      { storage with store :=
          (storage.backend.forVersion storage.store worker version deletion
            opening).1 }
  | .client worker version changes =>
      { storage with store :=
          storage.store.applyAll (storage.backend.dbPath worker version) changes }

def run (storage : Storage) (events : List Event) : Storage :=
  events.foldl (step codec) storage

/-- What is reported is what the object store would have reported anew. -/
def Agrees (storage : Storage) : Prop :=
  ∃ reopened,
    Commits.openAt codec storage.backend.basePath storage.store .answered =
      .ok reopened ∧
    (∀ version, storage.backend.commits.isCommited version =
      reopened.isCommited version) ∧
    storage.backend.lastCommited = reopened.getLastCommited

def Reports (storage : Storage) (version : SnapshotVersion) : Prop :=
  storage.backend.commits.isCommited version = true ∨
    storage.backend.lastCommited = some version

def committed (storage : Storage) (version : SnapshotVersion)
    (request : Request) : Except CommitError Unit :=
  (storage.backend.commits.commit codec storage.store version request).2.2

/-- The commit log is atomic along a run: a commit which fails leaves the log as it
was, the answers are at any time those of the object store, and a version is
reported only if it was at the start or one of its commits has succeeded. -/
structure Atomic (start : Storage) (events : List Event) : Prop where
  unchanged : ∀ before version request,
    before ++ [.commit version request] <+: events →
    (start.run codec before).committed codec version request ≠ .ok () →
    (start.run codec (before ++ [.commit version request])).backend.commits =
      (start.run codec before).backend.commits
  agrees : ∀ before, before <+: events → (start.run codec before).Agrees codec
  honest : ∀ before version, before <+: events →
    (start.run codec before).Reports version →
    start.Reports version ∨
      ∃ earlier request, earlier ++ [.commit version request] <+: before ∧
        (start.run codec earlier).committed codec version request = .ok ()

/-- The log in memory and the object of the commits as a journal. -/
structure Mirrors (storage : Storage) (journal : Journal SnapshotVersion) :
    Prop where
  path : storage.backend.commits.commitsPath =
    storage.backend.basePath.child "commits"
  memory : storage.backend.commits.commits = journal.entries
  stored : Commits.openAt codec storage.backend.basePath storage.store .answered =
    .ok ⟨journal.durable, storage.backend.basePath.child "commits"⟩

def Event.write? : Event → Option (Write SnapshotVersion)
  | .commit version .answered | .commit version (.lost _) => some (.stored version)
  | .commit version (.failed _) => some (.unstored version)
  | .reopen .answered => some .reloaded
  | .reopen .failed | .reopen .interrupted | .forVersion .. | .client .. => none

end Storage

section

variable {codec : Codec (List SnapshotVersion)} {storage start : Storage}
  {journal : Journal SnapshotVersion}

/-! ### Opening the log -/

theorem Commits.isCommited_iff {commits : Commits} {version : SnapshotVersion} :
    commits.isCommited version = true ↔ version ∈ commits.commits :=
  List.contains_iff_mem

theorem Commits.openAt_answered (basePath : Path) (store : ObjectStore) :
    Commits.openAt codec basePath store .answered =
      match store.find (basePath.child "commits") with
      | none => .ok ⟨[], basePath.child "commits"⟩
      | some content =>
          match codec.fromSlice content with
          | some commits => .ok ⟨commits, basePath.child "commits"⟩
          | none => .error .decoding := by
  cases found : store.find (basePath.child "commits") with
  | none => simp [Commits.openAt, ObjectStore.get, found]
  | some content => simp [Commits.openAt, ObjectStore.get, found, GetResult.bytes]

theorem Commits.openAt_unanswered {basePath : Path} {store : ObjectStore}
    {read : Read} {commits : Commits}
    (opened : Commits.openAt codec basePath store read = .ok commits) :
    read = .answered := by
  cases read with
  | answered => rfl
  | failed => simp [Commits.openAt, ObjectStore.get] at opened
  | interrupted =>
      unfold Commits.openAt ObjectStore.get at opened
      cases found : store.find (basePath.child "commits") with
      | none => simp [found] at opened
      | some content => simp [found, GetResult.bytes] at opened

theorem Commits.openAt_path {basePath : Path} {store : ObjectStore}
    {commits : Commits}
    (opened : Commits.openAt codec basePath store .answered = .ok commits) :
    commits.commitsPath = basePath.child "commits" := by
  rw [Commits.openAt_answered] at opened
  cases found : store.find (basePath.child "commits") with
  | none =>
      rw [found] at opened
      exact congrArg Commits.commitsPath (Except.ok.inj opened).symm
  | some content =>
      simp only [found] at opened
      cases decoded : codec.fromSlice content with
      | none => simp [decoded] at opened
      | some written =>
          rw [decoded] at opened
          exact congrArg Commits.commitsPath (Except.ok.inj opened).symm

theorem Commits.openAt_put (basePath : Path) (store : ObjectStore)
    (commits : List SnapshotVersion) :
    Commits.openAt codec basePath
        (store.insert (basePath.child "commits") (codec.toVec commits)) .answered =
      .ok ⟨commits, basePath.child "commits"⟩ := by
  rw [Commits.openAt_answered, ObjectStore.find_insert]
  simp only [codec.faithful]

/-- The log is not in a directory of a snapshot. -/
theorem SlateDbBackend.commits_outside (backend : SlateDbBackend)
    (worker : WorkerId) (version : SnapshotVersion) :
    ¬ backend.dbPath worker version <+: backend.basePath.child "commits" := by
  intro inside
  have short := inside.length_le
  simp [SlateDbBackend.dbPath, Path.child] at short

/-- Whatever a call does in the directories of the snapshots leaves the log. -/
theorem Storage.Mirrors.snapshots (mirrors : storage.Mirrors codec journal)
    {store : ObjectStore} (other : store.find
      (storage.backend.basePath.child "commits") =
        storage.store.find (storage.backend.basePath.child "commits")) :
    Storage.Mirrors codec { storage with store := store } journal where
  path := mirrors.path
  memory := mirrors.memory
  stored := by
    have stored := mirrors.stored
    rw [Commits.openAt_answered] at stored ⊢
    simpa only [other] using stored

namespace SlateDbBackend

variable (backend : SlateDbBackend) (store : ObjectStore) (worker : WorkerId)
  (version : SnapshotVersion) (deletion : Deletion) (opening : Opening)

/-- A committed version is opened as it is. -/
theorem forVersion_commited
    (isCommited : backend.commits.isCommited version = true) :
    backend.forVersion store worker version deletion opening =
      openDb store (backend.dbPath worker version) opening :=
  if_pos isCommited

theorem forVersion_uncommited
    (uncommited : backend.commits.isCommited version = false)
    (cleared : (store.deleteDir (backend.dbPath worker version) deletion).2 =
      .ok ()) :
    ∃ clean : ObjectStore,
      backend.forVersion store worker version deletion opening =
        openDb clean (backend.dbPath worker version) opening ∧
      ∀ path : Path, path.Below (backend.dbPath worker version) →
        clean.find path = none := by
  refine ⟨(store.deleteDir (backend.dbPath worker version) deletion).1, ?_,
    fun path below => ObjectStore.deleteDir_clears below cleared⟩
  have split : store.deleteDir (backend.dbPath worker version) deletion =
      (_, .ok ()) := Prod.ext rfl cleared
  simp only [forVersion, uncommited, Bool.false_eq_true, if_false]
  rw [split]

theorem find_forVersion {path : Path}
    (outside : ¬ backend.dbPath worker version <+: path) :
    (backend.forVersion store worker version deletion opening).1.find path =
      store.find path := by
  have deleted : (store.deleteDir (backend.dbPath worker version) deletion).1.find
      path = store.find path :=
    ObjectStore.find_deleteDir fun below => outside below.1
  have opened (store : ObjectStore) :
      (openDb store (backend.dbPath worker version) opening).1.find path =
        store.find path :=
    ObjectStore.find_applyAll outside opening.changes
  simp only [forVersion]
  split
  · exact opened store
  · split
    next cleared => exact (opened _).trans (by rw [← deleted, cleared])
    next missing => exact (opened _).trans (by rw [← deleted, missing])
    next failed => rw [← deleted, failed]

end SlateDbBackend

namespace Storage

@[simp] theorem run_nil (storage : Storage) : storage.run codec [] = storage := rfl

@[simp] theorem run_append (storage : Storage) (events more : List Event) :
    storage.run codec (events ++ more) =
      (storage.run codec events).run codec more :=
  List.foldl_append ..

theorem run_snoc (storage : Storage) (events : List Event) (event : Event) :
    storage.run codec (events ++ [event]) =
      (storage.run codec events).step codec event :=
  run_append storage events [event]

@[simp] theorem basePath_step (storage : Storage) (event : Event) :
    (storage.step codec event).backend.basePath = storage.backend.basePath := by
  cases event with
  | commit version request => cases request <;> rfl
  | reopen read =>
      simp only [step]
      split <;> rfl
  | forVersion | client => rfl

/-- The log in memory gets longer whatever becomes of the request. -/
theorem commits_commit (storage : Storage) (version : SnapshotVersion)
    (request : Request) :
    (storage.step codec (.commit version request)).backend.commits =
      { storage.backend.commits with
        commits := storage.backend.commits.commits ++ [version] } := by
  cases request <;> rfl

theorem committed_iff (storage : Storage) (version : SnapshotVersion)
    (request : Request) :
    storage.committed codec version request = .ok () ↔ request = .answered := by
  cases request with
  | answered => exact iff_of_true rfl rfl
  | failed error | lost error =>
      constructor
      · intro succeeded
        cases succeeded
      · intro answered
        cases answered

theorem Mirrors.step (mirrors : storage.Mirrors codec journal) (event : Event) :
    (storage.step codec event).Mirrors codec
      (journal.run event.write?.toList) := by
  cases event with
  | commit version request =>
      have log : storage.backend.commits.commits ++ [version] =
          (journal.append version).entries := by
        rw [mirrors.memory, Journal.entries_append]
      have put : Commits.openAt codec storage.backend.basePath
          (storage.store.insert (storage.backend.basePath.child "commits")
            (codec.toVec (storage.backend.commits.commits ++ [version])))
            .answered = .ok ⟨storage.backend.commits.commits ++ [version], _⟩ :=
        Commits.openAt_put _ _ _
      rw [← mirrors.path] at put
      have stored : Storage.Mirrors codec
          ⟨storage.store.insert storage.backend.commits.commitsPath
            (codec.toVec (storage.backend.commits.commits ++ [version])),
            { storage.backend with commits :=
              { storage.backend.commits with
                commits := storage.backend.commits.commits ++ [version] } }⟩
          (journal.append version).store := by
        refine ⟨mirrors.path, ?_, ?_⟩
        · rw [Journal.entries_store]
          exact log
        · rw [Journal.durable_store, ← log]
          exact put.trans (by rw [mirrors.path])
      cases request with
      | answered => exact stored
      | lost error => exact stored
      | failed error => exact ⟨mirrors.path, log, mirrors.stored⟩
  | reopen read =>
      cases read with
      | answered =>
          simp only [Storage.step, mirrors.stored]
          exact ⟨rfl, (Journal.entries_reload journal).symm, mirrors.stored⟩
      | failed => exact mirrors
      | interrupted =>
          cases opened : Commits.openAt codec storage.backend.basePath
              storage.store .interrupted with
          | ok commits => cases Commits.openAt_unanswered opened
          | error error =>
              simp only [Storage.step, opened]
              exact mirrors
  | forVersion worker version deletion opening =>
      exact mirrors.snapshots (SlateDbBackend.find_forVersion _ _ _ _ _ _
        (storage.backend.commits_outside worker version))
  | client worker version changes =>
      exact mirrors.snapshots (ObjectStore.find_applyAll
        (storage.backend.commits_outside worker version) changes)

theorem Mirrors.run (mirrors : storage.Mirrors codec journal)
    (events : List Event) :
    (storage.run codec events).Mirrors codec
      (journal.run (events.filterMap Event.write?)) := by
  induction events generalizing storage journal with
  | nil => exact mirrors
  | cons event rest ih =>
      have later := ih (mirrors.step event)
      cases write : event.write? with
      | none =>
          rw [List.filterMap_cons_none write]
          rw [write] at later
          exact later
      | some written =>
          rw [List.filterMap_cons_some write]
          rw [write] at later
          exact later

end Storage

theorem SlateDbBackend.new_mirrors {store : ObjectStore} {basePath : Path}
    {runtime : Bool} {read : Read} {backend : SlateDbBackend}
    (started : SlateDbBackend.new codec store basePath runtime read = .ok backend) :
    Storage.Mirrors codec ⟨store, backend⟩ ⟨backend.commits.commits, []⟩ := by
  unfold SlateDbBackend.new at started
  cases runtime with
  | false => cases started
  | true =>
      cases opened : Commits.openAt codec basePath store read with
      | error error => simp [opened] at started
      | ok commits =>
          simp only [opened, if_true, Except.ok.injEq] at started
          obtain rfl := Commits.openAt_unanswered opened
          subst started
          have path := Commits.openAt_path opened
          refine ⟨path, (List.append_nil _).symm, opened.trans ?_⟩
          rw [← path]

namespace Storage

theorem Mirrors.last (mirrors : storage.Mirrors codec journal) :
    storage.backend.lastCommited = journal.entries.getLast? := by
  rw [SlateDbBackend.lastCommited, Commits.getLastCommited, mirrors.memory]

theorem Mirrors.agrees_iff (mirrors : storage.Mirrors codec journal) :
    storage.Agrees codec ↔ journal.Agrees := by
  have reported : (∀ version, storage.backend.commits.isCommited version =
      Commits.isCommited ⟨journal.durable, storage.backend.basePath.child "commits"⟩
        version) ↔ ∀ version, version ∈ journal.entries ↔ version ∈ journal.durable := by
    apply forall_congr'
    intro version
    rw [Bool.eq_iff_iff, Commits.isCommited_iff, Commits.isCommited_iff,
      mirrors.memory]
  unfold Agrees Journal.Agrees
  rw [← reported, mirrors.last, mirrors.stored]
  constructor
  · rintro ⟨reopened, opened, same⟩
    obtain rfl := Except.ok.inj opened
    exact same
  · intro same
    exact ⟨_, rfl, same⟩

theorem Mirrors.reports_iff (mirrors : storage.Mirrors codec journal)
    {version : SnapshotVersion} :
    storage.Reports version ↔ version ∈ journal.entries := by
  rw [Reports, Commits.isCommited_iff, mirrors.memory, mirrors.last]
  constructor
  · rintro (member | isLast)
    · exact member
    · exact List.mem_of_getLast? isLast
  · exact .inl

/-- The snapshot of a version whose put was refused is opened as it is until the
log is opened again, and deleted from then on. -/
theorem Mirrors.refused_snapshot (mirrors : storage.Mirrors codec journal)
    {version : SnapshotVersion} (unstored : version ∉ journal.durable)
    (error : StoreError) (worker : WorkerId) (deletion : Deletion)
    (opening : Opening) :
    let refused := storage.step codec (.commit version (.failed error))
    let restarted := refused.step codec (.reopen .answered)
    let dbPath := storage.backend.dbPath worker version
    refused.backend.forVersion refused.store worker version deletion opening =
        SlateDbBackend.openDb refused.store dbPath opening ∧
      ((restarted.store.deleteDir dbPath deletion).2 = .ok () →
        ∃ clean : ObjectStore,
          restarted.backend.forVersion restarted.store worker version deletion
              opening = SlateDbBackend.openDb clean dbPath opening ∧
            ∀ path : Path, path.Below dbPath → clean.find path = none) := by
  intro refused restarted dbPath
  have later := mirrors.step (.commit version (.failed error))
  have anew := later.step (.reopen .answered)
  have samePath : restarted.backend.dbPath worker version = dbPath := by
    simp only [SlateDbBackend.dbPath, restarted, refused, basePath_step, dbPath]
  constructor
  · apply SlateDbBackend.forVersion_commited
    rw [Commits.isCommited_iff, later.memory]
    exact List.mem_append_right _ (List.mem_append_right _ (.head _))
  · intro cleared
    rw [← samePath] at cleared ⊢
    apply SlateDbBackend.forVersion_uncommited
    · rw [Bool.eq_false_iff, ne_eq, Commits.isCommited_iff, anew.memory]
      simpa [Event.write?, Journal.run, Journal.write] using unstored
    · exact cleared

theorem Event.write?_commit {event : Event} {write : Write SnapshotVersion}
    {version : SnapshotVersion} (wrote : event.write? = some write)
    (item : write.item? = some version) :
    ∃ request, event = .commit version request := by
  cases event with
  | commit committed request =>
      refine ⟨request, ?_⟩
      cases request with
      | answered | failed error | lost error =>
          cases wrote
          cases item
          rfl
  | reopen read =>
      cases read with
      | answered =>
          cases wrote
          cases item
      | failed | interrupted => cases wrote
  | forVersion | client => cases wrote

theorem nothing_unstored {events : List Event}
    (answered : ∀ version request, .commit version request ∈ events →
      request = .answered) (version : SnapshotVersion) :
    .unstored version ∉ events.filterMap Event.write? := by
  intro unstored
  obtain ⟨event, member, wrote⟩ := List.mem_filterMap.mp unstored
  obtain ⟨request, rfl⟩ := Event.write?_commit wrote rfl
  obtain rfl := answered version request member
  cases wrote

/-- What an event leaves of the agreement of memory and store. -/
theorem Mirrors.agrees_step (mirrors : storage.Mirrors codec journal)
    (agrees : storage.Agrees codec) (event : Event) :
    (storage.step codec event).Agrees codec ↔
      ∀ version error, event = .commit version (.failed error) →
        storage.backend.lastCommited = some version := by
  rw [(mirrors.step event).agrees_iff]
  have settled {journal : Journal SnapshotVersion} (nothing : journal.pending = [])
      (refused : ∀ version error, event ≠ .commit version (.failed error)) :
      journal.Agrees ↔ ∀ version error, event = .commit version (.failed error) →
        storage.backend.lastCommited = some version :=
    iff_of_true (Journal.agrees_of_nothing_pending nothing)
      fun version error isRefused => absurd isRefused (refused version error)
  have same := mirrors.agrees_iff.mp agrees
  cases event with
  | commit version request =>
      cases request with
      | answered | lost => exact settled rfl (by simp)
      | failed error =>
          rw [mirrors.last]
          constructor
          · rintro shown _ _ ⟨⟩
            exact same.append_iff.mp shown
          · intro repeats
            exact same.append_iff.mpr (repeats version error rfl)
  | reopen read =>
      cases read with
      | answered => exact settled rfl (by simp)
      | failed | interrupted => exact iff_of_true same (by simp)
  | forVersion | client => exact iff_of_true same (by simp)

/-- The answers are at any time those of the object store exactly where every
refused commit repeats the version which is reported as the last one. -/
theorem answers_agree_iff (mirrors : storage.Mirrors codec journal)
    (agrees : storage.Agrees codec) (events : List Event) :
    (∀ before, before <+: events → (storage.run codec before).Agrees codec) ↔
      ∀ before version error,
        before ++ [.commit version (.failed error)] <+: events →
        (storage.run codec before).backend.lastCommited = some version := by
  constructor
  · intro throughout before version error reached
    have earlier := throughout before ((List.prefix_append _ _).trans reached)
    have later := throughout _ reached
    rw [run_snoc] at later
    exact ((mirrors.run before).agrees_step earlier _).mp later version error rfl
  · intro repeats before
    induction before using List.reverseRecOn with
    | nil => exact fun _ => agrees
    | append_singleton before event ih =>
        intro reached
        rw [run_snoc, (mirrors.run before).agrees_step
          (ih ((List.prefix_append _ _).trans reached))]
        rintro version error rfl
        exact repeats before version error reached

/-- What memory reports is in the object store with the next put that is carried
out, also a version whose own put was refused. -/
theorem Mirrors.written_with_next (mirrors : storage.Mirrors codec journal)
    {version : SnapshotVersion} (reported : storage.Reports version)
    (next : SnapshotVersion) :
    ∃ reopened,
      Commits.openAt codec storage.backend.basePath
        (storage.step codec (.commit next .answered)).store .answered =
          .ok reopened ∧
      reopened.isCommited version = true := by
  refine ⟨_, (mirrors.step (.commit next .answered)).stored, ?_⟩
  have entries : version ∈ ((journal.append next).store).durable := by
    rw [Journal.durable_store, Journal.entries_append]
    exact List.mem_append_left _ (mirrors.reports_iff.mp reported)
  exact Commits.isCommited_iff.mpr entries

/-- A version which is in the object store's log at some time is reported ever
after, and its snapshots are opened as they are. -/
theorem Mirrors.stored_version_kept (mirrors : storage.Mirrors codec journal)
    {reopened : Commits}
    (opened : Commits.openAt codec storage.backend.basePath storage.store
      .answered = .ok reopened)
    {version : SnapshotVersion} (isStored : reopened.isCommited version = true)
    (events : List Event) :
    let later := storage.run codec events
    later.Reports version ∧ ∀ worker deletion opening,
      later.backend.forVersion later.store worker version deletion opening =
        SlateDbBackend.openDb later.store (later.backend.dbPath worker version)
          opening := by
  intro later
  have run := mirrors.run events
  have durable : version ∈ journal.durable := by
    rw [mirrors.stored] at opened
    obtain rfl := Except.ok.inj opened
    exact Commits.isCommited_iff.mp isStored
  have stays := (journal.durable_run (events.filterMap Event.write?)).subset durable
  have member := Journal.mem_entries_of_durable stays
  have reported : later.backend.commits.isCommited version = true := by
    rw [Commits.isCommited_iff, run.memory]
    exact member
  exact ⟨.inl reported, fun worker deletion opening =>
    later.backend.forVersion_commited _ _ _ _ _ reported⟩

/-- The commit log is atomic exactly along the runs in which every put of a commit
is answered. -/
theorem commit_log_atomic_iff (codec : Codec (List SnapshotVersion))
    {store : ObjectStore} {basePath : Path} {runtime : Bool} {read : Read}
    {backend : SlateDbBackend}
    (started : SlateDbBackend.new codec store basePath runtime read = .ok backend)
    (events : List Event) :
    Atomic codec ⟨store, backend⟩ events ↔
      ∀ version request, .commit version request ∈ events →
        request = .answered := by
  have mirrors := SlateDbBackend.new_mirrors started
  constructor
  · intro atomic version request isCommit
    by_cases answered : request = .answered
    · exact answered
    · obtain ⟨before, after, split⟩ := List.append_of_mem isCommit
      have reached : before ++ [.commit version request] <+: events :=
        ⟨after, by rw [split, List.append_assoc, List.singleton_append]⟩
      have same := atomic.unchanged before version request reached
        (mt (committed_iff _ version request).mp answered)
      rw [run_snoc, commits_commit] at same
      have length := congrArg (fun log => log.commits.length) same
      simp at length
  · intro answered
    refine ⟨?_, ?_, ?_⟩
    · intro before version request reached failed
      have isCommit : .commit version request ∈ events :=
        reached.subset (List.mem_append_right _ (.head _))
      exact absurd ((committed_iff _ _ _).mpr (answered _ _ isCommit)) failed
    · intro before reached
      have puts := fun version request (member : .commit version request ∈ before) =>
        answered version request (reached.subset member)
      rw [(mirrors.run before).agrees_iff]
      apply Journal.agrees_of_nothing_pending
      exact Journal.pending_run (nothing_unstored puts) rfl
    · intro before version reached reported
      have member := (mirrors.run before).reports_iff.mp reported
      rcases Journal.mem_entries_run member with first | ⟨write, written, item⟩
      · exact .inl (mirrors.reports_iff.mpr first)
      · obtain ⟨event, isEvent, wrote⟩ := List.mem_filterMap.mp written
        obtain ⟨request, rfl⟩ := Event.write?_commit wrote item
        obtain ⟨earlier, later, split⟩ := List.append_of_mem isEvent
        refine .inr ⟨earlier, request, ⟨later, ?_⟩, ?_⟩
        · rw [split, List.append_assoc, List.singleton_append]
        · exact (committed_iff _ _ _).mpr
            (answered _ _ (reached.subset isEvent))

end Storage

def versionsCodec : Codec (List SnapshotVersion) :=
  ⟨MessagePack.writeArray, MessagePack.readArray, MessagePack.readArray_writeArray⟩

def freshStorage : Storage := ⟨⟨.empty⟩, ⟨[], ⟨[], ["commits"]⟩⟩⟩

theorem freshStorage_new :
    SlateDbBackend.new versionsCodec freshStorage.store [] true .answered =
      .ok freshStorage.backend := rfl

theorem answered_commits_atomic :
    Storage.Atomic versionsCodec freshStorage
      [.commit 42 .answered, .reopen .answered, .commit 3 .answered] := by
  apply (Storage.commit_log_atomic_iff versionsCodec freshStorage_new _).mpr
  intro version request isCommit
  simp only [List.mem_cons, Storage.Event.commit.injEq, reduceCtorEq,
    List.not_mem_nil, or_false, false_or] at isCommit
  rcases isCommit with ⟨-, answered⟩ | ⟨-, answered⟩
  · exact answered
  · exact answered

/-- The put of version 7 is refused.  The version is reported from then on, is not
once the log was opened again, and is again, whatever is opened, after the next
commit. -/
theorem refused_commit_reported :
    ¬ Storage.Atomic versionsCodec freshStorage [.commit 7 (.failed .other)] ∧
    (freshStorage.run versionsCodec
      [.commit 7 (.failed .other)]).backend.lastCommited = some 7 ∧
    (freshStorage.run versionsCodec [.commit 7 (.failed .other),
      .reopen .answered]).backend.lastCommited = none ∧
    (freshStorage.run versionsCodec [.commit 7 (.failed .other),
      .commit 8 .answered, .reopen .answered]).backend.commits.commits =
        [7, 8] := by
  refine ⟨fun atomic => ?_, rfl, rfl, by decide +kernel⟩
  obtain ⟨reopened, opened, -, ends⟩ := atomic.agrees _ List.prefix_rfl
  obtain rfl := Except.ok.inj opened
  cases ends

end

end Malstrom.Snapshot
