import Malstrom.Keyed.Barrier

namespace Malstrom.Keyed

open Data Operators

variable {K V T VO S L : Type}

/-! Every lookup of a routing target or of an acquire's target succeeds as long
as no worker collects a key it is the new owner of. -/

def MessageRouter.Collects (router : MessageRouter K V T) (key : K) : Prop :=
  match router with
  | .interrogate listing => key ∈ listing.interrogateMsg.shared
  | .collect collecting =>
      key ∈ collecting.whitelist ∨
        ∃ current, collecting.currentCollect = some current ∧ current.key = key
  | .normal _ | .finished _ => False

instance [DecidableEq K] (router : MessageRouter K V T) (key : K) :
    Decidable (router.Collects key) :=
  match router with
  | .interrogate listing =>
      inferInstanceAs (Decidable (key ∈ listing.interrogateMsg.shared))
  | .collect collecting =>
      decidable_of_iff (key ∈ collecting.whitelist ∨
          collecting.currentCollect.map Collect.key = some key)
        (by simp [MessageRouter.Collects])
  | .normal _ | .finished _ => isFalse id

namespace Rescale

theorem Shape.busy_clients {partitioner : WorkerPartitioner K}
    {rescale : Rescale} {thisWorker : WorkerId} {current : Worker K V T VO S L}
    (shape : rescale.Shape partitioner thisWorker current)
    (busy : current.distributor.router.isNormal = false) (other : WorkerId) :
    other ∈ current.distributor.remotes ↔
      other ∈ rescale.participants ∧ other ≠ thisWorker := by
  have notNormal (router : NormalRouter)
      (phase : current.distributor.router.phase = .normal router) : False := by
    cases before : current.distributor.router <;>
      simp_all [MessageRouter.isNormal, MessageRouter.phase]
  cases shape with
  | waiting phase _ _ => exact absurd phase (notNormal _)
  | interrogating _ _ clients => exact clients other
  | collecting _ _ clients => exact clients other
  | finished _ _ clients => exact clients other
  | upgraded phase _ _ => exact absurd phase (notNormal _)

theorem Shape.tester {partitioner : WorkerPartitioner K}
    {rescale : Rescale} {worker : WorkerId} {current : Worker K V T VO S L}
    {router : InterrogateRouter K}
    (shape : rescale.Shape partitioner worker current)
    (interrogating : current.distributor.router = .interrogate router) :
    router.interrogateMsg.tester = rescale.tester partitioner worker := by
  cases shape with
  | interrogating phase _ _ =>
      rw [interrogating] at phase
      exact (Phase.interrogate.inj phase).2
  | waiting phase _ _ => simp [interrogating, MessageRouter.phase] at phase
  | collecting phase _ _ => simp [interrogating, MessageRouter.phase] at phase
  | finished phase _ _ => simp [interrogating, MessageRouter.phase] at phase
  | upgraded phase _ _ => simp [interrogating, MessageRouter.phase] at phase

theorem takeReport_collects [DecidableEq K] {distributor : Distributor K V T}
    {report : Report K S} {key : K}
    (collects : (distributor.takeReport report).router.Collects key) :
    distributor.router.Collects key ∨
      ∃ router keys, distributor.router = .interrogate router ∧
        report = .keys keys ∧ key ∈ keys ∧
        router.interrogateMsg.tester key = true := by
  cases report with
  | nothing => exact .inl collects
  | persist _ _ => exact .inl collects
  | keys keys =>
      cases routerEquation : distributor.router with
      | interrogate router =>
          simp only [Distributor.takeReport, routerEquation,
            MessageRouter.Collects, Interrogate.mem_addKeys] at collects ⊢
          rcases collects with before | ⟨member, tested⟩
          · exact .inl before
          · exact .inr ⟨router, keys, rfl, rfl, member, tested⟩
      | normal _ =>
          simp [Distributor.takeReport, routerEquation,
            MessageRouter.Collects] at collects
      | finished _ =>
          simp [Distributor.takeReport, routerEquation,
            MessageRouter.Collects] at collects
      | collect _ =>
          left
          simpa [Distributor.takeReport, routerEquation,
            MessageRouter.Collects] using collects
  | state operatorId state =>
      left
      cases routerEquation : distributor.router with
      | interrogate router =>
          simpa [Distributor.takeReport, routerEquation,
            MessageRouter.Collects] using collects
      | normal _ =>
          simp [Distributor.takeReport, routerEquation,
            MessageRouter.Collects] at collects
      | finished _ =>
          simp [Distributor.takeReport, routerEquation,
            MessageRouter.Collects] at collects
      | collect router =>
          simp only [Distributor.takeReport, routerEquation,
            MessageRouter.Collects, Option.map_eq_some_iff] at collects ⊢
          rcases collects with listed | ⟨_, ⟨current, found, rfl⟩, same⟩
          · exact .inl listed
          · exact .inr ⟨current, found, same⟩

theorem receive_keys [DecidableEq K] {operator : StatefulOp K V T VO S L}
    {current next : OperatorState K S L} {message : Message K V T}
    {emitted : List (Message K VO T)} {keys : List K}
    (receives : operator.receive current message =
      (next, emitted, .keys keys)) :
    message = .interrogate ∧ keys = current.state.keys := by
  cases message with
  | interrogate =>
      simp only [StatefulOp.receive, Prod.mk.injEq, Report.keys.injEq]
        at receives
      exact ⟨rfl, receives.2.2.symm⟩
  | collect key =>
      simp only [StatefulOp.receive] at receives
      split at receives <;> simp at receives
  | _ => simp [StatefulOp.receive] at receives

theorem Course.collects [DecidableEq K] {job : Job K V T VO S L}
    {rescale : Rescale} {current : Worker K V T VO S L}
    {thisWorker : WorkerId} {arrival : Arrival K V T}
    {router : MessageRouter K V T} {target : Option WorkerId} {key : K}
    (course : rescale.Course job.partitioner thisWorker current arrival router
      target)
    (collects : router.Collects key) :
    current.distributor.router.Collects key ∨
      key = arrival.message.key ∧ target = some thisWorker ∧
        job.partitioner key rescale.new ≠ thisWorker ∧
        job.partitioner key (rescale.buildSet thisWorker) = thisWorker := by
  cases course with
  | listed interrogating _ oldHere newAway =>
      rw [interrogating]
      simp only [MessageRouter.Collects, Interrogate.mem_addKeys,
        List.mem_singleton] at collects
      rcases collects with before | ⟨same, _⟩
      · exact .inl before
      · subst same
        exact .inr ⟨rfl, rfl, newAway, oldHere⟩
  | buffered collecting _ _ _ _ =>
      rw [collecting]
      exact .inl collects
  | _ => exact .inl collects

section

variable [DecidableEq K] [MaybeTime T] {job : Job K V T VO S L}
  {rescale : Rescale} {system : System K V T VO S L} {event : Event K V T}
  {worker : Worker K V T VO S L}
  {outgoing : List (WorkerId × NetworkMessage K V T)}

/-- A key gets listed for collection by a record of its old owner or by the
interrogation of the operator. -/
theorem Step.collects (step : rescale.Step job system event worker outgoing)
    {key : K} (collects : worker.distributor.router.Collects key) :
    (system.workers event.worker).distributor.router.Collects key ∨
      (job.partitioner key rescale.new ≠ event.worker ∧
        job.partitioner key (rescale.buildSet event.worker) = event.worker ∧
        ∃ arrival router, system.arrival event = some arrival ∧
          arrival.message.key = key ∧
          Routed job.partitioner event.worker
            (system.workers event.worker).distributor.remotes arrival
            (system.workers event.worker).distributor.router router
            (some event.worker)) ∨
      (system.operated event = some .interrogate ∧
        key ∈ (job.operator.schedule
          (system.workers event.worker).operator).1.state ∧
        job.partitioner key (rescale.buildSet event.worker) ≠
          job.partitioner key rescale.new) := by
  have move := step.move
  unfold System.arrival
  generalize system.incoming event = incoming at move ⊢
  generalize system.received event = received at move ⊢
  generalize system.operated event = operated at move ⊢
  cases move with
  | quiet sameRouter _ _ _ _ _ =>
      simp only [Worker.after, sameRouter] at collects
      exact .inl collects
  | kept arrives routed =>
      rcases (step.before.course routed).collects collects with
        before | ⟨same, _, newAway, oldHere⟩
      · exact .inl before
      · exact .inr (.inl ⟨newAway, oldHere, _, _, arrives, same.symm, routed⟩)
  | buffered arrives routed =>
      rcases (step.before.course routed).collects collects with
        before | ⟨_, here, _⟩
      · exact .inl before
      · cases here
  | forwarded arrives routed other _ =>
      rcases (step.before.course routed).collects collects with
        before | ⟨_, here, _⟩
      · exact .inl before
      · exact absurd (Option.some.inj here) other
  | acquire => exact .inl collects
  | upgrade => exact .inl collects
  | ackUpgrade => exact .inl collects
  | rescale _ =>
      simp [Worker.after, MessageRouter.Collects, InterrogateRouter.new,
        Interrogate.new] at collects
  | rescaleCopy _ => exact .inl collects
  | interrogated interrogating _ =>
      left
      rw [interrogating]
      simpa [Worker.after, MessageRouter.Collects, CollectRouter.new]
        using collects
  | collectNext collecting release next =>
      left
      rw [collecting]
      simp only [Worker.after, MessageRouter.Collects, Option.some.injEq,
        exists_eq_left', Collect.new] at collects
      refine .inl ?_
      rw [← release.fixed.2.1, (IndexSet.pop_eq_some next).1]
      exact collects.imp_right Eq.symm
  | concluded _ _ _ => simp [Worker.after, MessageRouter.Collects] at collects
  | finished _ _ => simp [Worker.after, MessageRouter.Collects] at collects
  | scheduled _ => exact .inl collects
  | received head receives reports =>
      subst reports
      rcases takeReport_collects collects with
        before | ⟨router, keys, interrogating, rfl, member, tested⟩
      · exact .inl before
      · obtain ⟨rfl, rfl⟩ := receive_keys receives
        refine .inr (.inr ⟨rfl, member, ?_⟩)
        rw [step.before.tester interrogating] at tested
        exact of_decide_eq_true tested
  | sink => exact .inl collects

/-! ### Every lookup succeeds -/

def Selects (partitioner : WorkerPartitioner K) : Prop :=
  ∀ key (workers : IndexSet WorkerId), workers.items ≠ [] →
    partitioner key workers ∈ workers

/-- No key is collected by its new owner. -/
def CollectsAway (rescale : Rescale) (job : Job K V T VO S L)
    (system : System K V T VO S L) : Prop :=
  ∀ worker ∈ rescale.participants, ∀ key,
    (system.workers worker).distributor.router.Collects key →
      job.partitioner key rescale.new ≠ worker

/-- An operator which is interrogated holds no key which comes to its worker
by the rescale. -/
def AsksOwned (rescale : Rescale) (job : Job K V T VO S L)
    (system : System K V T VO S L) (event : Event K V T) : Prop :=
  system.operated event = some .interrogate →
    ∀ key ∈ (job.operator.schedule
        (system.workers event.worker).operator).1.state,
      job.partitioner key rescale.new = event.worker →
        job.partitioner key (rescale.buildSet event.worker) = event.worker

omit [DecidableEq K] [MaybeTime T] in
theorem not_collectsAway {worker : WorkerId} {key : K}
    (member : worker ∈ rescale.participants)
    (collects : (system.workers worker).distributor.router.Collects key)
    (newHere : job.partitioner key rescale.new = worker) :
    ¬rescale.CollectsAway job system :=
  fun away => away worker member key collects newHere

instance : Decidable (rescale.AsksOwned job system event) :=
  match operated : system.operated event with
  | some .interrogate =>
      decidable_of_iff (∀ key ∈ (job.operator.schedule
          (system.workers event.worker).operator).1.state.keys,
        job.partitioner key rescale.new = event.worker →
          job.partitioner key (rescale.buildSet event.worker) = event.worker)
        (by simp [AsksOwned, operated, IndexMap.mem_def])
  | none | some (.data _) | some (.epoch _) | some .absBarrier
  | some (.rescale _) | some .suspendMarker | some (.collect _)
  | some (.acquire _) => isTrue (by simp [AsksOwned, operated])

theorem Step.collectsAway (away : rescale.CollectsAway job system)
    (asksOwned : rescale.AsksOwned job system event)
    (step : rescale.Step job system event worker outgoing) :
    rescale.CollectsAway job (system.moved event.worker (system.incoming event)
      worker outgoing) := by
  intro other member key collects
  rw [System.moved_worker] at collects
  split at collects
  next same =>
    subst same
    rcases step.collects collects with before | ⟨newAway, _⟩ | ⟨asked, held, moves⟩
    · exact away _ member key before
    · exact newAway
    · intro newHere
      exact moves ((asksOwned asked key held newHere).trans newHere.symm)
  next => exact away other member key collects

theorem buildSet_nonempty (old : rescale.old.items ≠ []) (worker : WorkerId) :
    (rescale.buildSet worker).items ≠ [] := by
  obtain ⟨first, member⟩ := List.exists_mem_of_ne_nil _ old
  have within : first ∈ rescale.buildSet worker := by
    unfold buildSet
    split
    · exact member
    · exact mem_participants.mpr (.inl member)
  exact List.ne_nil_of_mem within

omit [MaybeTime T] in
/-- A record is routed to this worker or to one it holds a client for. -/
theorem Shape.reaches {thisWorker target : WorkerId}
    {current : Worker K V T VO S L} {arrival : Arrival K V T}
    {router : MessageRouter K V T}
    (selects : Selects job.partitioner) (old : rescale.old.items ≠ [])
    (new : rescale.new.items ≠ [])
    (shape : rescale.Shape job.partitioner thisWorker current)
    (routed : Routed job.partitioner thisWorker current.distributor.remotes
      arrival current.distributor.router router (some target)) :
    target = thisWorker ∨ target ∈ current.distributor.remotes := by
  have oldOwner := selects arrival.message.key (rescale.buildSet thisWorker)
    (buildSet_nonempty old thisWorker)
  have newOwner := selects arrival.message.key rescale.new new
  have busyOld (busy : current.distributor.router.isNormal = false) :
      job.partitioner arrival.message.key (rescale.buildSet thisWorker) =
          thisWorker ∨
        job.partitioner arrival.message.key (rescale.buildSet thisWorker) ∈
          current.distributor.remotes := by
    rw [shape.busy_clients busy]
    exact or_iff_not_imp_left.mpr fun away =>
      ⟨mem_participants_of_mem_buildSet oldOwner, away⟩
  have busyNew (busy : current.distributor.router.isNormal = false) :
      job.partitioner arrival.message.key rescale.new = thisWorker ∨
        job.partitioner arrival.message.key rescale.new ∈
          current.distributor.remotes := by
    rw [shape.busy_clients busy]
    exact or_iff_not_imp_left.mpr fun away =>
      ⟨mem_participants.mpr (.inr newOwner), away⟩
  have course := shape.course routed
  generalize targetEquation : some target = destination at course
  cases course with
  | waiting phase unstarted =>
      cases targetEquation
      refine or_iff_not_imp_left.mpr fun away => ?_
      cases shape with
      | waiting _ _ clients => exact (clients _).mpr ⟨oldOwner, away⟩
      | interrogating _ started _ => exact absurd started unstarted
      | collecting _ started _ => exact absurd started unstarted
      | finished _ started _ => exact absurd started unstarted
      | upgraded _ started _ => exact absurd started unstarted
  | interrogating interrogating _ _ =>
      cases targetEquation
      exact busyOld (by rw [interrogating]; rfl)
  | collected collecting _ _ _ _ =>
      cases targetEquation
      exact busyNew (by rw [collecting]; rfl)
  | collectOld collecting _ _ _ =>
      cases targetEquation
      exact busyOld (by rw [collecting]; rfl)
  | finishedAway finished _ _ =>
      cases targetEquation
      exact busyNew (by rw [finished]; rfl)
  | finishedOld finished _ _ _ _ _ =>
      cases targetEquation
      exact busyOld (by rw [finished]; rfl)
  | upgraded phase started =>
      cases targetEquation
      refine or_iff_not_imp_left.mpr fun away => ?_
      have upgraded : rescale.Upgraded current := by
        simpa [Upgraded, phase, MessageRouter.phase] using started
      exact (shape.upgraded_clients upgraded _).mpr ⟨newOwner, away⟩
  | ahead _ _ => exact .inl (Option.some.inj targetEquation)
  | listed _ _ _ _ => exact .inl (Option.some.inj targetEquation)
  | uncollected _ _ _ _ => exact .inl (Option.some.inj targetEquation)
  | buffered _ _ _ _ _ => cases targetEquation
  | collectOwned _ _ _ _ => exact .inl (Option.some.inj targetEquation)
  | finishedOwned _ _ _ _ => exact .inl (Option.some.inj targetEquation)

omit [MaybeTime T] in
theorem Shape.handles {thisWorker : WorkerId}
    {current : Worker K V T VO S L} (arrival : Arrival K V T)
    (selects : Selects job.partitioner) (old : rescale.old.items ≠ [])
    (new : rescale.new.items ≠ [])
    (shape : rescale.Shape job.partitioner thisWorker current) :
    ∃ result, current.distributor.handleDataMessage arrival.message
      arrival.version job.partitioner thisWorker arrival.sender = .ok result := by
  obtain ⟨target, routed, outcome⟩ := current.distributor.router.routed arrival
    job.partitioner thisWorker current.distributor.remotes
  simp only [Distributor.handleDataMessage, outcome]
  cases target with
  | none => exact ⟨_, rfl⟩
  | some target =>
      simp only [Option.map_some, Distributor.sendDataMessage]
      rcases shape.reaches selects old new routed with here | client
      · simp [here]
      · obtain ⟨state, found⟩ := IndexMap.exists_get?_of_mem client
        by_cases here : target = thisWorker
        · simp [here]
        · simp [here, found]

theorem steps (selects : Selects job.partitioner) (old : rescale.old.items ≠ [])
    (new : rescale.new.items ≠ []) (shaped : rescale.Shaped job system)
    (away : rescale.CollectsAway job system)
    (participant : event.worker ∈ rescale.participants) :
    ∃ next, system.step job event = .ok next := by
  have shape := shaped event.worker participant
  cases event with
  | receiveRemote worker remote =>
      simp only [System.step, System.receiveRemote]
      split
      · cases system.links remote worker with
        | nil => exact ⟨_, rfl⟩
        | cons message rest =>
            cases message with
            | data message =>
                obtain ⟨result, handled⟩ := shape.handles
                  ⟨message.content, some message.version, remote⟩ selects old new
                simp only [Distributor.receiveRemote,
                  Distributor.handleRemoteDataMessage]
                rw [show Event.worker (.receiveRemote worker remote) = worker
                  from rfl] at handled
                rw [handled]
                exact ⟨_, rfl⟩
            | _ => exact ⟨_, rfl⟩
      · exact ⟨_, rfl⟩
  | receiveLocal worker message =>
      simp only [System.step, System.receiveLocal]
      split
      · exact ⟨_, rfl⟩
      · cases message with
        | data message =>
            obtain ⟨result, handled⟩ := shape.handles
              ⟨message, none, worker⟩ selects old new
            simp only [Distributor.receiveLocal,
              Distributor.handleLocalDataMessage]
            rw [show Event.worker (.receiveLocal worker (.data message)) = worker
              from rfl] at handled
            rw [handled]
            exact ⟨_, rfl⟩
        | _ => exact ⟨_, rfl⟩
  | tryEmitBarrier worker => exact ⟨_, rfl⟩
  | tryEmitShutdown worker => exact ⟨_, rfl⟩
  | operator worker => exact ⟨_, rfl⟩
  | sink worker => exact ⟨_, rfl⟩
  | lifecycle worker =>
      change rescale.Shape job.partitioner worker (system.workers worker) at shape
      have ownAway := away worker participant
      simp only [System.step, Distributor.lifecycle, MessageRouter.lifecycle]
      cases routerEquation : (system.workers worker).distributor.router with
      | normal _ => exact ⟨_, rfl⟩
      | interrogate _ => exact ⟨_, rfl⟩
      | finished _ => exact ⟨_, rfl⟩
      | collect router =>
          simp only [CollectRouter.lifecycle]
          cases currentEquation : router.currentCollect with
          | none => exact ⟨_, rfl⟩
          | some collect =>
              have clients := (shape.collecting_clients routerEquation).2
              have newSet := (shape.collecting_sets routerEquation).2
              have newAway := ownAway collect.key (by
                rw [routerEquation]
                exact .inr ⟨collect, currentEquation, rfl⟩)
              have client := (clients _).mpr ⟨mem_participants.mpr
                (.inr (selects collect.key rescale.new new)), newAway⟩
              obtain ⟨state, found⟩ := IndexMap.exists_get?_of_mem client
              by_cases unwrapped : (system.workers worker).clones = 0
              · simp [Collect.tryIntoAcquire, unwrapped, newSet, found]
              · simp [Collect.tryIntoAcquire, unwrapped]

end

end Rescale

theorem Settled.valid [DecidableEq K] [MaybeTime T] {job : Job K V T VO S L}
    {admissible : IndexSet WorkerId → Prop}
    {allowed : Rescale → System K V T VO S L → Event K V T → Prop}
    {workers : IndexSet WorkerId} {configVersion : Option Version}
    {settled : System K V T VO S L}
    (history : Settled job admissible allowed workers configVersion settled) :
    admissible workers := by
  cases history with
  | start valid => exact valid
  | rescaled _ _ _ valid _ _ => exact valid

/-- As long as no operator is interrogated while it holds a key which comes to
its own worker, no rescale of a job panics and no worker collects a key it is
the new owner of. -/
theorem rescale_never_panics [DecidableEq K] [MaybeTime T]
    {job : Job K V T VO S L} {workers : IndexSet WorkerId}
    {configVersion : Option Version} {settled system : System K V T VO S L}
    {rescale : Rescale} (selects : Rescale.Selects job.partitioner)
    (history : Settled job (fun workers => workers.items ≠ [])
      (fun rescale system event => rescale.Permits system event ∧
        rescale.AsksOwned job system event) workers configVersion settled)
    (continues : rescale.Continues workers configVersion)
    (nonempty : rescale.new.items ≠ [])
    (run : Reaches (fun state event => state.step job event)
      (fun system event => rescale.Permits system event ∧
        rescale.AsksOwned job system event)
      (rescale.begin job settled) system) :
    (∀ event, rescale.Permits system event →
      ∃ next, system.step job event = .ok next) ∧
    rescale.CollectsAway job system := by
  have oldNonempty : rescale.old.items ≠ [] := continues.old ▸ history.valid
  obtain ⟨running, _⟩ := history.running fun _ _ _ allowed => allowed.1
  obtain ⟨rfl, baseEquation, _⟩ := continues
  rw [← baseEquation] at running
  obtain ⟨shaped, away⟩ := Rescale.run_invariant (rescale.CollectsAway job)
    (Rescale.begin_shaped running)
    (fun worker member key collects => by
      rw [Rescale.begin_router running member] at collects
      exact collects.elim)
    (fun _ _ allowed => allowed.1)
    (fun _ _ _ _ _ away allowed step => step.collectsAway away allowed.2) run
  exact ⟨fun event permitted => Rescale.steps selects oldNonempty nonempty shaped
    away permitted.participant, away⟩

def shrinkage : Rescale where
  old := IndexSet.ofList [0, 1]
  new := IndexSet.ofList [0]
  version := 0
  base := 0

/-- Worker 1 rescales first and sends its state of key 1 to worker 0, which
has not seen the rescale yet. -/
def shrinkageTrace : List (Event Nat Unit Nat) :=
  Event.run 1 [0] (some (.data ⟨1, (), 0⟩)) ++ [.operator 1, .sink 1] ++
  Event.run 1 [0] (some (.rescale shrinkage.message)) ++
  [.operator 1, .sink 1] ++ Event.run 1 [0] none ++ Event.run 1 [0] none ++
  [.operator 1, .sink 1] ++ Event.run 1 [0] none ++
  Event.run 0 [1] none ++ [.operator 0, .sink 0] ++
  Event.run 0 [1] (some (.rescale shrinkage.message)) ++
  [.operator 0, .sink 0] ++ Event.run 0 [1] none ++ Event.run 0 [1] none ++
  [.operator 0, .sink 0]

@[irreducible] def shrinkageState : System Nat Unit Nat Nat Nat Unit :=
  replay (fun state event => System.step countJob state event)
    (shrinkage.begin countJob (System.initial countJob shrinkage.old))
    shrinkageTrace

/-- Interrogated with the state it has just acquired, worker 0 collects key 1
for itself and panics. -/
theorem shrinkage_panics :
    ∃ system, Reaches (fun state event => System.step countJob state event)
        shrinkage.Permits
        (shrinkage.begin countJob (System.initial countJob shrinkage.old))
        system ∧
      ¬shrinkage.CollectsAway countJob system ∧
      shrinkage.Permits system (.lifecycle 0) ∧
      system.step countJob (.lifecycle 0) = .error .acquireTarget := by
  have run : Reaches (fun state event => System.step countJob state event)
      shrinkage.Permits
      (shrinkage.begin countJob (System.initial countJob shrinkage.old))
      shrinkageState := by
    unfold shrinkageState
    exact Follows.reaches shrinkageTrace .refl (by decide +kernel)
  have permitted : shrinkage.Permits shrinkageState (.lifecycle 0) := by
    decide +kernel
  have fails : failure (shrinkageState.step countJob (.lifecycle 0)) =
      some .acquireTarget := by decide +kernel
  have collects : (shrinkageState.workers 0).distributor.router.Collects 1 := by
    decide +kernel
  have away : ¬shrinkage.CollectsAway countJob shrinkageState :=
    Rescale.not_collectsAway (by decide) collects (by decide)
  exact ⟨shrinkageState, run, away, permitted, eq_error_of_failure fails⟩

theorem growth_never_panics :
    (∃ next, growthState.step countJob (.lifecycle 0) = .ok next) ∧
      growth.CollectsAway countJob growthState := by
  have selects : Rescale.Selects countJob.partitioner :=
    fun key _ nonempty => indexSelect_mem key nonempty
  have run : Reaches (fun state event => System.step countJob state event)
      (fun system event => growth.Permits system event ∧
        growth.AsksOwned countJob system event)
      (growth.begin countJob (System.initial countJob growth.old))
      growthState := by
    unfold growthState
    exact Follows.reaches growthTrace .refl (by decide +kernel)
  have permitted : growth.Permits growthState (.lifecycle 0) := by
    decide +kernel
  have safe := rescale_never_panics selects (.start (by decide))
    ⟨rfl, rfl, by simp⟩ (by decide) run
  exact ⟨safe.1 _ permitted, safe.2⟩

end Malstrom.Keyed
