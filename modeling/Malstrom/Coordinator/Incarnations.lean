import Malstrom.Coordinator.Deployment
import Malstrom.Coordinator.Operation

namespace Malstrom.Coordinator

open Data

/-! What the reports of a worker which was removed do to a later one of its
id. -/

section

variable {worker : WorkerId} {exchange : Exchange} {entry : Option WorkerState}
  {peer : Peer} {heard : List WorkerMessage}

theorem Progress.leaving_last {setups builds : Nat} {thread : Thread}
    {commands : List CoordinationMessage} {leaving : List Nat}
    {sent : List WorkerMessage}
    (progress : Progress worker setups exchange thread commands leaving builds
      sent) : ∀ incarnation ∈ leaving, incarnation = setups := by
  intro incarnation member
  cases progress with
  | left leaves waits => exact List.mem_singleton.mp member
  | _ => cases member

theorem Progress.settles {setups builds : Nat} {thread : Thread}
    {commands : List CoordinationMessage} {leaving : List Nat}
    {sent : List WorkerMessage}
    (progress : Progress worker setups .none thread commands leaving builds
      sent) (applied : Nat) : settle .none (sent.take applied) ≠ none := by
  cases progress with
  | running said =>
      cases said
      simp [settle]
  | ended stopped said isSent =>
      obtain said | ⟨⟨procedure, isNone⟩, -⟩ := said
      · cases said
        subst isSent
        cases applied <;> simp [settle, WorkerMessage.phase?]
      · cases isNone

theorem Hears.leaving (hears : Hears worker exchange heard entry peer) :
    ∀ incarnation ∈ peer.leaving, incarnation = peer.setups := by
  obtain ⟨sent, applied, talks, -⟩ := hears
  exact talks.progress.leaving_last

theorem Hears.listed (hears : Hears worker .none heard entry peer) :
    entry ≠ none := by
  obtain ⟨sent, applied, talks, -⟩ := hears
  rintro rfl
  exact talks.progress.settles applied talks.entry.symm

theorem Away.leaving (away : Away peer) :
    ∀ incarnation ∈ peer.leaving, incarnation = peer.setups := by
  intro incarnation member
  obtain ⟨-, -, none⟩ | ⟨-, ⟨last, -⟩ | ⟨none, -⟩⟩ := away.quiet
  · simp [none] at member
  · simpa [last] using member
  · simp [none] at member

/-- Where the inbound task of a removed worker still lives, the worker has yet to
say that it was removed, or to be heard. -/
theorem Away.outdated (away : Away peer)
    (alive : peer.tasks ≠ []) :
    peer.setups ∈ peer.leaving ∨ ⟨peer.setups, .removed⟩ ∈ peer.pending := by
  obtain ⟨none, -⟩ | ⟨-, ⟨last, -⟩ | ⟨-, last⟩⟩ := away.quiet
  · exact absurd none alive
  · simp [last]
  · simp [last]

theorem Standing.Meets.leaving {clean : Prop} {standing : Standing}
    (meets : standing.Meets clean worker entry peer) :
    ∀ incarnation ∈ peer.leaving, incarnation = peer.setups := by
  cases standing with
  | outside => exact meets.1.leaving
  | away => exact Away.leaving meets
  | fresh => simp [meets.1.leaving]
  | hears exchange heard => exact Hears.leaving meets
  | leaving =>
      obtain ⟨procedure, -, hears⟩ := meets
      exact hears.leaving

end

namespace Job

variable {state : SerializableCoordinatorState}
  {resume : Option SnapshotVersion} {job : Job}

/-- Every allowed event in which communication is only set up for a worker when
the inbound task of its last incarnation has ended. -/
def Separated (job : Job) (event : Event) : Prop :=
  job.allowed event ∧ job.separate event

theorem known_run (run : Reaches step Separated (boot state resume) job) :
    Known (∀ worker ∈ state.workerStates, worker ∈ state.activeWorkers)
      job := by
  refine run.invariant _ (known_boot state resume) ?_
  intro current event next _ known separated stepped
  obtain rfl := Except.ok.inj stepped
  exact known.step separated.1 separated.2

/-- A state from which a coordinator is started, if every life of the job
before it was separated. -/
inductive Recovered : Option SnapshotVersion → SerializableCoordinatorState →
    Prop
  | nothing : Recovered none {}
  | committed {resume : Option SnapshotVersion}
      {state : SerializableCoordinatorState} {job : Job}
      {commit : SnapshotVersion × SerializableCoordinatorState}
      (before : Recovered resume state)
      (life : Reaches step Separated (boot state resume) job)
      (member : commit ∈ job.committed) : Recovered (some commit.1) commit.2

theorem Recovered.clean (recovered : Recovered resume state) :
    ∀ worker ∈ state.workerStates, worker ∈ state.activeWorkers := by
  induction recovered with
  | nothing => simp
  | committed before life member ih => exact (known_run life).committed ih _ member

/-- Whatever is still to be said or applied comes from the last incarnation of
its worker, and between requests there are states of the active workers only. -/
structure Current (job : Job) : Prop where
  pending : ∀ worker, ∀ report ∈ (job.peers worker).pending,
    report.incarnation = (job.peers worker).setups
  leaving : ∀ worker, ∀ incarnation ∈ (job.peers worker).leaving,
    incarnation = (job.peers worker).setups
  listed : job.doing = .idle → ∀ worker,
    worker ∈ job.states.store ↔ worker ∈ job.activeWorkers

theorem Known.current {clean : Prop} (known : Known clean job)
    (isClean : clean) : job.Current where
  pending worker := (known.meets worker).pending
  leaving worker := (known.meets worker).leaving
  listed isIdle worker := by
    have settled := known.settles (.inr (.inl isIdle)) worker
    unfold Standing.settled at settled
    rw [← not_iff_not, ← IndexMap.get?_eq_none]
    split at settled
    next active => simp [active, Hears.listed settled]
    next other => simp [other, settled.2 isClean]

/-- A snapshot is only committed when every active worker has reported it
complete. -/
theorem commits_reported (run : Reaches step Separated (boot state resume) job)
    {version : SnapshotVersion} {serialized : SerializableCoordinatorState}
    (isDoing : job.doing = .commit version serialized) :
    ∀ worker ∈ job.activeWorkers,
      ⟨(job.peers worker).setups, .snapshotComplete version⟩ ∈
        (job.peers worker).reported := by
  intro worker active
  have meets := (known_run run).meets worker
  simp only [isDoing, Doing.standing, if_pos active] at meets
  exact Hears.reported meets (by simp)

/-- Communication is set up beside a living inbound task only where something of
an earlier incarnation is left. -/
theorem Current.separate {clean : Prop} (known : Known clean job)
    {event : Event} (current : (job.next event).Current) :
    job.separate event := by
  cases event with
  | coordinate =>
      simp only [Job.separate]
      split
      next start new worker rest isDoing =>
        have meets := known.meets worker
        simp only [isDoing, Doing.standing, List.mem_cons_self, if_true] at meets
        have away : Away (job.peers worker) := meets
        have isNext : (job.next .coordinate).peers worker =
            { job.peers worker with
              tasks := (job.peers worker).tasks ++ [none]
              setups := (job.peers worker).setups + 1 } := by
          simp [Job.next, Job.coordinate?, isDoing, Job.setupComm, Job.setPeer]
        by_contra alive
        have leaving := current.leaving worker
        have pending := current.pending worker
        rw [isNext] at leaving pending
        rcases away.outdated alive with left | said
        · exact absurd (leaving _ left) (by simp)
        · have still := pending _ (by simpa [Peer.pending] using said)
          exact absurd still (by simp)
      next => trivial
  | _ => trivial

/-- A run stays in order as long as communication is set up separately, and no
longer. -/
theorem current_iff (recovered : Recovered resume state)
    (run : Reaches step Separated (boot state resume) job) :
    job.Current ∧ ∀ event, job.allowed event →
      ((job.next event).Current ↔ job.separate event) := by
  have known := known_run run
  refine ⟨known.current recovered.clean, fun event allowed => ⟨?_, ?_⟩⟩
  · exact fun current => current.separate known
  · intro separate
    exact (known.step allowed separate).current recovered.clean

instance (job : Job) (event : Event) : Decidable (job.separate event) :=
  match event with
  | .coordinate =>
      match isDoing : job.doing with
      | .setup _ _ (worker :: _) =>
          decidable_of_iff ((job.peers worker).tasks = [])
            (by simp [separate, isDoing])
      | .setup _ _ [] | .reset .. | .build .. | .execution .. | .watch | .idle
      | .perform .. | .serialize _ | .commit .. | .tidy .. | .finish
      | .finished => isTrue (by simp [separate, isDoing])
  | .poll _ | .request _ | .spawn _ | .work _ | .complete _ | .leave _
  | .receive _ _ | .apply _ _ => isTrue trivial

instance (job : Job) (event : Event) : Decidable (job.Separated event) :=
  inferInstanceAs (Decidable (_ ∧ _))

end Job

/-! Worker 1 is removed and comes back. -/

def shrunkTrace : List Job.Event :=
  [.request (.scale 1)] ++ .replicate 7 .coordinate ++ pairRound ++
    [.coordinate, .coordinate] ++ pairRound ++ .replicate 5 .coordinate

def removedTrace : List Job.Event := [.leave 1, .receive 1 0, .apply 1 0]

def regrownTrace : List Job.Event :=
  let newRound : List Job.Event :=
    [.poll 1, .poll 1, .work 1, .receive 1 0, .apply 1 0, .poll 1]
  [.request (.scale 2)] ++ .replicate 4 .coordinate ++ [.spawn 1] ++
    newRound ++ [.coordinate] ++ newRound ++ .replicate 4 .coordinate ++
    pairRound ++ [.coordinate, .coordinate] ++ pairRound ++
    .replicate 4 .coordinate

def snapshotTrace (round : List Job.Event) : List Job.Event :=
  [.request .snapshot] ++ .replicate 3 .coordinate ++ round ++
    [.coordinate, .coordinate] ++ round ++ .replicate 3 .coordinate

def Doing.commits : Doing → Option SnapshotVersion
  | .commit version _ => some version
  | _ => none

theorem Doing.eq_commit {doing : Doing} {version : SnapshotVersion}
    (commits : doing.commits = some version) :
    ∃ serialized, doing = .commit version serialized := by
  cases doing <;> simp_all [Doing.commits]

/-- Worker 1 says that it was removed before it comes back, and a snapshot is
taken then. -/
@[irreducible] def comeBack : Job :=
  replay Job.step (.boot {} none) (grownTrace ++ shrunkTrace ++
    removedTrace ++ regrownTrace ++ snapshotTrace pairRound)

theorem comeBack_separated :
    Reaches Job.step Job.Separated (.boot {} none) comeBack := by
  unfold comeBack
  exact Follows.reaches _ .refl (by decide +kernel)

theorem comeBack_current :
    comeBack.Current ∧ ∀ event, comeBack.allowed event →
      ((comeBack.next event).Current ↔ comeBack.separate event) :=
  Job.current_iff .nothing comeBack_separated

theorem comeBack_reported :
    comeBack.doing.commits = some 0 ∧ comeBack.activeWorkers.keys = [0, 1] ∧
      ∀ worker ∈ comeBack.activeWorkers,
        ⟨(comeBack.peers worker).setups, .snapshotComplete 0⟩ ∈
          (comeBack.peers worker).reported := by
  have commits : comeBack.doing.commits = some 0 := by decide +kernel
  obtain ⟨serialized, isDoing⟩ := Doing.eq_commit commits
  exact ⟨commits, by decide +kernel,
    Job.commits_reported comeBack_separated isDoing⟩

/-- It only says so when it is back. -/
@[irreducible] def forgotten : Job :=
  replay Job.step (.boot {} none)
    (grownTrace ++ shrunkTrace ++ regrownTrace ++ removedTrace)

def Doing.isIdle : Doing → Bool
  | .idle => true
  | _ => false

theorem forgotten_reached :
    Reaches Job.step Job.allowed (.boot {} none) forgotten := by
  unfold forgotten
  exact Follows.reaches _ .refl (by decide +kernel)

/-- The new incarnation has no state any more. -/
theorem forgotten_unlisted :
    Reaches Job.step Job.allowed (.boot {} none) forgotten ∧
      forgotten.doing.isIdle = true ∧ 1 ∈ forgotten.activeWorkers ∧
      1 ∉ forgotten.states.store :=
  ⟨forgotten_reached, by decide +kernel, by decide +kernel, by decide +kernel⟩

/-- A snapshot is taken then, of which worker 1 does nothing. -/
@[irreducible] def incomplete : Job :=
  replay Job.step forgotten
    (snapshotTrace [.work 0, .receive 0 0, .apply 0 0])

theorem incomplete_commits :
    Reaches Job.step Job.allowed (.boot {} none) incomplete ∧
      incomplete.doing.commits = some 0 ∧ 1 ∈ incomplete.activeWorkers ∧
      ∀ report ∈ (incomplete.peers 1).reported,
        report.message ≠ .snapshotComplete 0 := by
  refine ⟨?_, by decide +kernel, by decide +kernel, by decide +kernel⟩
  unfold incomplete
  exact Follows.reaches _ forgotten_reached (by decide +kernel)

end Malstrom.Coordinator
