import Malstrom.Keyed.Placement

namespace Malstrom.Keyed

open Data Operators

variable {K V T VO S L : Type}

/-! After a rescale the state of every key sits with the owner of the key, as
long as no record of a higher version is kept where its key does not belong. -/

/-- No record on a link is of a later version. -/
def Dated (bound : Version) (system : System K V T VO S L) : Prop :=
  ∀ source target message,
    .data message ∈ system.links source target → message.version ≤ bound

theorem Ruled.version [DecidableEq K] {partitioner : WorkerPartitioner K}
    {thisWorker : WorkerId} {remotes : Remotes T} {arrival : Arrival K V T}
    {router next : MessageRouter K V T} {target : Option WorkerId}
    (rule : Ruled partitioner thisWorker remotes arrival router next target) :
    next.version = router.version := by
  cases rule <;> rfl

namespace Rescale

/-- A state on a link goes to the new owner of its key, which is not back to
normal yet; a worker is back to normal only once all have announced. -/
structure Underway (rescale : Rescale) (job : Job K V T VO S L)
    (system : System K V T VO S L) : Prop where
  announced : ∀ worker ∈ rescale.participants,
    rescale.Upgraded (system.workers worker) →
    ∀ other ∈ rescale.participants, rescale.Announced (system.workers other)
  addressed : ∀ source target acquire,
    .acquire acquire ∈ system.links source target →
      (source ∈ rescale.participants ∧ target ∈ rescale.participants ∧
        source ≠ target) ∧
      job.partitioner acquire.key rescale.new = target ∧
      ¬rescale.Upgraded (system.workers target)

/-- A record of a higher version is kept only where its key may be. -/
def AheadLands [DecidableEq K] (rescale : Rescale) (job : Job K V T VO S L)
    (system : System K V T VO S L) (event : Event K V T) : Prop :=
  ∀ arrival ∈ system.arrival event, ∀ version ∈ arrival.version,
    (system.workers event.worker).distributor.router.version < version →
    rescale.LandsMovable job.partitioner event.worker
      (system.workers event.worker).distributor.router arrival.message.key

instance (rescale : Rescale) (partitioner : WorkerPartitioner K)
    (worker : WorkerId) (key : K) :
    Decidable (rescale.Movable partitioner worker key) :=
  inferInstanceAs (Decidable (_ ∨ _))

instance [DecidableEq K] (rescale : Rescale)
    (partitioner : WorkerPartitioner K) (worker : WorkerId)
    (router : MessageRouter K V T) (key : K) :
    Decidable (rescale.LandsMovable partitioner worker router key) :=
  match router with
  | .normal _ =>
      inferInstanceAs (Decidable (rescale.Movable partitioner worker key))
  | .interrogate _ => inferInstanceAs (Decidable (_ ∨ _))
  | .collect _ | .finished _ => isTrue trivial

instance [DecidableEq K] (rescale : Rescale) (job : Job K V T VO S L)
    (system : System K V T VO S L) (event : Event K V T) :
    Decidable (rescale.AheadLands job system event) :=
  inferInstanceAs (Decidable (∀ arrival ∈ system.arrival event, _))

section

variable [DecidableEq K] [MaybeTime T] {job : Job K V T VO S L}
  {rescale : Rescale} {system : System K V T VO S L} {event : Event K V T}
  {worker : Worker K V T VO S L}
  {outgoing : List (WorkerId × NetworkMessage K V T)}

omit [DecidableEq K] [MaybeTime T] in
theorem Shape.version_le {thisWorker : WorkerId}
    {current : Worker K V T VO S L}
    (shape : rescale.Shape job.partitioner thisWorker current)
    (base : rescale.base ≤ rescale.version) :
    current.distributor.router.version ≤ rescale.version := by
  have build : rescale.buildVersion thisWorker ≤ rescale.version := by
    unfold buildVersion
    split
    · exact base
    · exact Nat.zero_le _
  cases shape with
  | waiting phase _ _ =>
      cases routerEquation : current.distributor.router <;>
        simp_all [MessageRouter.phase, MessageRouter.version, initialRouter]
  | interrogating phase _ _ =>
      cases routerEquation : current.distributor.router <;>
        simp_all [MessageRouter.phase, MessageRouter.version, handover]
  | collecting phase _ _ =>
      cases routerEquation : current.distributor.router <;>
        simp_all [MessageRouter.phase, MessageRouter.version, handover]
  | finished phase _ _ =>
      cases routerEquation : current.distributor.router <;>
        simp_all [MessageRouter.phase, MessageRouter.version, handover]
  | upgraded phase _ _ =>
      cases routerEquation : current.distributor.router <;>
        simp_all [MessageRouter.phase, MessageRouter.version]

theorem Step.sends_data (step : rescale.Step job system event worker outgoing)
    {target : WorkerId} {message : NetworkDataMessage K V T}
    (member : (target, .data message) ∈ outgoing) :
    message.version =
        (system.workers event.worker).distributor.router.version ∧
      target ∈ (system.workers event.worker).distributor.remotes := by
  have move := step.move
  generalize system.incoming event = incoming at move
  generalize system.received event = received at move
  generalize system.operated event = operated at move
  have ofReleased {router released : CollectRouter K V T}
      {network : List (WorkerId × NetworkMessage K V T)}
      (collecting : (system.workers event.worker).distributor.router =
        .collect router)
      (release : Released job.partitioner
        (system.workers event.worker).distributor.remotes
        (system.workers event.worker).clones router released network)
      (member : (target, .data message) ∈ network) :
      message.version =
          (system.workers event.worker).distributor.router.version ∧
        target ∈ (system.workers event.worker).distributor.remotes := by
    rw [collecting]
    cases release with
    | idle _ => simp at member
    | released _ _ client =>
        simp only [List.mem_cons, List.mem_map, Prod.mk.injEq, reduceCtorEq,
          and_false, false_or, NetworkMessage.data.injEq] at member
        obtain ⟨_, _, rfl, rfl⟩ := member
        exact ⟨rfl, client⟩
  cases move with
  | quiet _ _ _ quietNetwork _ _ =>
      have quiet := quietNetwork _ member
      simp [NetworkMessage.isQuiet] at quiet
  | forwarded arrives routed _ client =>
      simp only [List.mem_singleton, Prod.mk.injEq,
        NetworkMessage.data.injEq] at member
      obtain ⟨rfl, rfl⟩ := member
      refine ⟨?_, client⟩
      cases routed with
      | ahead _ _ => rfl
      | ruled _ rule => exact rule.version
  | collectNext collecting release _ => exact ofReleased collecting release member
  | concluded collecting release _ =>
      rcases List.mem_append.mp member with released | announced
      · exact ofReleased collecting release released
      · simp [broadcast] at announced
  | _ => simp at member

theorem Step.sends_acquire
    (step : rescale.Step job system event worker outgoing)
    {target : WorkerId} {acquire : NetworkAcquire K}
    (member : (target, .acquire acquire) ∈ outgoing) :
    (target ∈ rescale.participants ∧ target ≠ event.worker) ∧
      job.partitioner acquire.key rescale.new = target ∧
      ¬rescale.Announced (system.workers event.worker) := by
  have move := step.move
  have before := step.before
  generalize system.incoming event = incoming at move
  generalize system.received event = received at move
  generalize system.operated event = operated at move
  have ofReleased {router released : CollectRouter K V T}
      {network : List (WorkerId × NetworkMessage K V T)}
      (collecting : (system.workers event.worker).distributor.router =
        .collect router)
      (release : Released job.partitioner
        (system.workers event.worker).distributor.remotes
        (system.workers event.worker).clones router released network)
      (member : (target, .acquire acquire) ∈ network) :
      (target ∈ rescale.participants ∧ target ≠ event.worker) ∧
        job.partitioner acquire.key rescale.new = target ∧
        ¬rescale.Announced (system.workers event.worker) := by
    have clients := (before.collecting_clients collecting).2
    have newSet := (before.collecting_sets collecting).2
    cases release with
    | idle _ => simp at member
    | released _ _ client =>
        simp only [List.mem_cons, List.mem_map, Prod.mk.injEq, reduceCtorEq,
          and_false, exists_false, or_false, NetworkMessage.acquire.injEq]
          at member
        obtain ⟨rfl, rfl⟩ := member
        exact ⟨(clients _).mp client, by rw [newSet],
          unannounced_of_collecting collecting⟩
  cases move with
  | quiet _ _ _ quietNetwork _ _ =>
      have quiet := quietNetwork _ member
      simp [NetworkMessage.isQuiet] at quiet
  | collectNext collecting release _ => exact ofReleased collecting release member
  | concluded collecting release _ =>
      rcases List.mem_append.mp member with released | announced
      · exact ofReleased collecting release released
      · simp [broadcast] at announced
  | _ => simp at member

omit [DecidableEq K] [MaybeTime T] in
theorem mem_moved_links {source target : WorkerId}
    {message : NetworkMessage K V T}
    (member : message ∈ (system.moved event.worker (system.incoming event)
      worker outgoing).links source target) :
    message ∈ system.links source target ∨
      source = event.worker ∧ (target, message) ∈ outgoing := by
  rw [System.moved_links, List.mem_append] at member
  rcases member with before | now
  · left
    split at before
    · exact List.mem_of_mem_tail before
    · exact before
  · right
    split at now
    next same => exact ⟨same, Links.mem_addressedTo.mp now⟩
    next => simp at now

theorem Step.dated (base : rescale.base ≤ rescale.version)
    (dated : Dated rescale.version system)
    (step : rescale.Step job system event worker outgoing) :
    Dated rescale.version
      (system.moved event.worker (system.incoming event) worker outgoing) := by
  intro source target message member
  rcases mem_moved_links member with before | ⟨_, sent⟩
  · exact dated source target message before
  · rw [(step.sends_data sent).1]
    exact step.before.version_le base

theorem Step.finished_of_upgraded
    (step : rescale.Step job system event worker outgoing)
    (working : ¬rescale.Upgraded (system.workers event.worker))
    (upgraded : rescale.Upgraded worker) :
    (system.workers event.worker).distributor.router.isFinished = true ∧
      worker.distributor.router.isNormal = true := by
  have normal : worker.distributor.router.isNormal = true := by
    unfold Upgraded at upgraded
    cases routerEquation : worker.distributor.router <;>
      simp_all [MessageRouter.phase, MessageRouter.isNormal]
  refine ⟨?_, normal⟩
  cases step.move.advance with
  | same phase _ taken noTrigger =>
      have started : rescale.Started worker ↔
          rescale.Started (system.workers event.worker) := by
        simp [started_append taken, noTrigger]
      simp only [Upgraded, phase, started] at upgraded
      exact absurd upgraded working
  | copy _ _ busy phase _ _ =>
      cases before : (system.workers event.worker).distributor.router <;>
        cases after : worker.distributor.router <;>
        simp_all [MessageRouter.isNormal, MessageRouter.phase]
  | rescale _ _ _ _ phase _ _ => simp [Upgraded, phase] at upgraded
  | interrogated _ _ _ phase _ _ => simp [Upgraded, phase] at upgraded
  | concluded _ _ phase _ _ => simp [Upgraded, phase] at upgraded
  | finished _ isFinished _ _ _ _ =>
      cases before : (system.workers event.worker).distributor.router <;>
        simp_all [MessageRouter.isFinished, MessageRouter.phase]

/-- A worker gets back to normal only once it knows all about the others. -/
theorem Step.knows (step : rescale.Step job system event worker outgoing)
    (working : ¬rescale.Upgraded (system.workers event.worker))
    (upgraded : rescale.Upgraded worker) : rescale.Knows event.worker system :=
  have turned := step.finished_of_upgraded working upgraded
  step.upgrades turned.1 turned.2

theorem Step.announced_of_upgraded (shaken : rescale.Shaken job system)
    (announced : ∀ worker ∈ rescale.participants,
      rescale.Upgraded (system.workers worker) →
      ∀ other ∈ rescale.participants, rescale.Announced (system.workers other))
    (step : rescale.Step job system event worker outgoing) :
    let next := system.moved event.worker (system.incoming event) worker outgoing
    ∀ worker ∈ rescale.participants, rescale.Upgraded (next.workers worker) →
      ∀ other ∈ rescale.participants, rescale.Announced (next.workers other) := by
  intro next changed participant upgraded other member
  have before : rescale.Announced (system.workers other) ∨
      other = event.worker ∧ rescale.Announced worker := by
    rw [System.moved_worker] at upgraded
    split at upgraded
    next same =>
      by_cases already : rescale.Upgraded (system.workers event.worker)
      · exact .inl (announced event.worker step.participant already other member)
      · by_cases self : other = event.worker
        · exact .inr ⟨self, upgraded.announced⟩
        · exact .inl ((step.knows already upgraded).announced member self
            (shaken other event.worker self member step.participant
              fun upgraded => absurd upgraded already))
    next => exact .inl (announced changed participant upgraded other member)
  rw [System.moved_worker]
  split
  next same =>
    subst same
    exact before.elim step.announced And.right
  next different => exact before.resolve_right fun both => different both.1

theorem Step.underway (shaken : rescale.Shaken job system)
    (underway : rescale.Underway job system)
    (step : rescale.Step job system event worker outgoing) :
    rescale.Underway job
      (system.moved event.worker (system.incoming event) worker outgoing) := by
  refine ⟨step.announced_of_upgraded shaken underway.announced, ?_⟩
  intro source target acquire member
  rcases mem_moved_links member with linked | ⟨rfl, sent⟩
  · obtain ⟨ends, owner, working⟩ :=
      underway.addressed source target acquire linked
    refine ⟨ends, owner, ?_⟩
    rw [System.moved_worker]
    split
    next same =>
      subst same
      intro upgraded
      have known := step.knows working upgraded source ends.1 ends.2.2
      have pair := shaken source event.worker ends.2.2 ends.1 step.participant
        fun upgraded => absurd upgraded working
      exact pair.proper.noAcquire (by rw [known]) acquire linked
    next => exact working
  · obtain ⟨⟨participant, different⟩, owner, unannounced⟩ :=
      step.sends_acquire sent
    refine ⟨⟨step.participant, participant, different.symm⟩, owner, ?_⟩
    rw [System.moved_worker, if_neg different]
    exact fun upgraded => unannounced (underway.announced target participant
      upgraded event.worker step.participant)

theorem Step.arrival_version
    (step : rescale.Step job system event worker outgoing)
    {arrival : Arrival K V T} (arrives : system.arrival event = some arrival)
    {version : Version} (versionEquation : arrival.version = some version) :
    ∃ message : NetworkDataMessage K V T, message.version = version ∧
      .data message ∈ system.links arrival.sender event.worker := by
  have head := step.head
  unfold System.arrival arrivalOf at arrives
  split at arrives
  next remote message incoming _ =>
    obtain rfl := Option.some.inj arrives
    exact ⟨message, Option.some.inj versionEquation,
      List.mem_of_head? (head _ incoming).2⟩
  next =>
    obtain rfl := Option.some.inj arrives
    simp at versionEquation
  next => simp at arrives

/-- Every state and every record is on the way to or at a place where its key
may be. -/
structure Kept (rescale : Rescale) (job : Job K V T VO S L)
    (system : System K V T VO S L) : Prop where
  shaken : rescale.Shaken job system
  underway : rescale.Underway job system
  dated : Dated rescale.version system
  stationed : ∀ worker ∈ rescale.participants,
    rescale.Stationed job.partitioner worker (system.workers worker)

theorem Step.kept (keeps : job.operator.logic.KeepsKeys)
    (base : rescale.base ≤ rescale.version)
    (kept : rescale.Kept job system)
    (lands : rescale.AheadLands job system event)
    (step : rescale.Step job system event worker outgoing) :
    rescale.Kept job
      (system.moved event.worker (system.incoming event) worker outgoing) := by
  refine ⟨step.shaken kept.shaken, step.underway kept.shaken kept.underway,
    step.dated base kept.dated, ?_⟩
  intro other participant
  rw [System.moved_worker]
  split
  next same =>
    subst same
    refine step.stationed keeps (kept.stationed _ participant) lands ?_ ?_
    · intro arrival arrives version versionEquation
      obtain ⟨message, rfl, linked⟩ :=
        step.arrival_version arrives versionEquation
      exact kept.dated _ _ message linked
    · intro remote acquire found
      exact (kept.underway.addressed remote _ acquire
        (List.mem_of_head? (step.head _ found).2)).2.1
  next => exact kept.stationed other participant

end

end Rescale

/-! ### From one rescale to the next -/

/-- Between two rescales every state and every record in front of an operator
is at the worker which owns its key, and no state is on a link. -/
structure Homed (partitioner : WorkerPartitioner K)
    (workers : IndexSet WorkerId) (version : Version)
    (system : System K V T VO S L) : Prop where
  noClone : ∀ worker ∈ workers, ∀ message ∈ (system.workers worker).queue,
    message.isClone = false
  state : ∀ worker ∈ workers, ∀ key ∈ (system.workers worker).operator.state,
    partitioner key workers = worker
  queue : ∀ worker ∈ workers, ∀ message ∈ (system.workers worker).queue,
    Rescale.KeyIs (fun key => partitioner key workers = worker) message
  noAcquire : ∀ source target acquire,
    .acquire acquire ∉ system.links source target
  dated : Dated version system

namespace Rescale

variable {job : Job K V T VO S L} {rescale : Rescale}
  {system : System K V T VO S L}

theorem Continues.base_le {workers : IndexSet WorkerId}
    {configVersion : Option Version}
    (continues : rescale.Continues workers configVersion) :
    rescale.base ≤ rescale.version := by
  rw [continues.base]
  cases configVersion with
  | none => exact Nat.zero_le _
  | some version => exact Nat.le_of_lt (continues.later version rfl)

theorem begin_unstarted {worker : WorkerId}
    (member : worker ∈ rescale.participants) :
    ¬rescale.Started ((rescale.begin job system).workers worker) := by
  by_cases old : worker ∈ rescale.old
  · simp [begin, old, Started]
  · have new : worker ∈ rescale.new :=
      (mem_participants.mp member).resolve_left old
    simp [begin, old, new, Started, Worker.build]

theorem begin_working (running : Running rescale.old rescale.base system)
    {worker : WorkerId} (member : worker ∈ rescale.participants) :
    ¬rescale.Upgraded ((rescale.begin job system).workers worker) := by
  simpa [Upgraded, begin_router running member, MessageRouter.phase] using
    begin_unstarted member

theorem begin_kept [DecidableEq K]
    (running : Running rescale.old rescale.base system)
    (homed : Homed job.partitioner rescale.old rescale.base system)
    (base : rescale.base ≤ rescale.version)
    (shaken : rescale.Shaken job (rescale.begin job system)) :
    rescale.Kept job (rescale.begin job system) := by
  refine ⟨shaken, ⟨fun worker member upgraded =>
      absurd upgraded (begin_working running member),
    fun source target acquire linked =>
      absurd linked (homed.noAcquire source target acquire)⟩,
    fun source target message linked =>
      Nat.le_trans (homed.dated source target message linked) base, ?_⟩
  intro worker member
  unfold Stationed
  rw [begin_router running member]
  have unstarted : ¬rescale.Started ((rescale.begin job system).workers worker) :=
    begin_unstarted member
  by_cases old : worker ∈ rescale.old
  · have movable (key : K)
        (here : job.partitioner key rescale.old = worker) :
        rescale.Movable job.partitioner worker key := by
      unfold Movable buildSet
      rw [if_pos old, here, or_iff_not_imp_left]
      exact fun away => Ne.symm away
    have same : (rescale.begin job system).workers worker =
        { system.workers worker with taken := [], handed := [], sent := [] } := by
      simp [begin, old]
    rw [same] at unstarted ⊢
    exact ⟨homed.noClone worker old,
      fun key held => ⟨fun started => absurd started unstarted,
        fun _ => movable key (homed.state worker old key held)⟩,
      fun message queued key found => ⟨fun started => absurd started unstarted,
        fun _ => movable key (homed.queue worker old message queued key found)⟩⟩
  · have new : worker ∈ rescale.new :=
      (mem_participants.mp member).resolve_left old
    have same : (rescale.begin job system).workers worker =
        Worker.build job worker rescale.participants := by
      simp [begin, old, new]
    rw [same]
    exact ⟨by simp [Worker.build], by simp [Worker.build],
      by simp [Worker.build]⟩

variable [DecidableEq K]

theorem Kept.owns {worker : WorkerId} (kept : rescale.Kept job system)
    (participant : worker ∈ rescale.participants)
    (upgraded : rescale.Upgraded (system.workers worker)) :
    (∀ message ∈ (system.workers worker).queue, message.isClone = false) ∧
      (∀ key ∈ (system.workers worker).operator.state,
        job.partitioner key rescale.new = worker) ∧
      ∀ message ∈ (system.workers worker).queue,
        KeyIs (fun key => job.partitioner key rescale.new = worker) message := by
  have stationed := kept.stationed worker participant
  unfold Upgraded at upgraded
  unfold Stationed at stationed
  cases routerEquation : (system.workers worker).distributor.router with
  | normal router =>
      rw [routerEquation] at upgraded stationed
      exact ⟨stationed.1, fun key held => (stationed.2.1 key held).1 upgraded,
        fun message queued key found =>
          (stationed.2.2 message queued key found).1 upgraded⟩
  | interrogate _ => simp [routerEquation, MessageRouter.phase] at upgraded
  | collect _ => simp [routerEquation, MessageRouter.phase] at upgraded
  | finished _ => simp [routerEquation, MessageRouter.phase] at upgraded

theorem Kept.homed (kept : rescale.Kept job system)
    (completed : rescale.Completed system) :
    Homed job.partitioner rescale.new rescale.version system := by
  have owns (worker : WorkerId) (member : worker ∈ rescale.new) :=
    have participant : worker ∈ rescale.participants :=
      mem_participants.mpr (.inr member)
    kept.owns participant (completed worker participant)
  exact {
    noClone := fun worker member => (owns worker member).1
    state := fun worker member => (owns worker member).2.1
    queue := fun worker member => (owns worker member).2.2
    noAcquire := fun source target acquire linked =>
      have addressed := kept.underway.addressed source target acquire linked
      addressed.2.2 (completed target addressed.1.2.1)
    dated := kept.dated }

theorem run_kept [MaybeTime T]
    {allowed : System K V T VO S L → Event K V T → Prop}
    {settled : System K V T VO S L} {configVersion : Option Version}
    {workers : IndexSet WorkerId} (keeps : job.operator.logic.KeepsKeys)
    (guarded : ∀ system event, allowed system event →
      rescale.Permits system event ∧ rescale.AheadLands job system event)
    (running : Running workers (configVersion.getD 0) settled)
    (stale : Stale configVersion settled)
    (homed : Homed job.partitioner workers (configVersion.getD 0) settled)
    (continues : rescale.Continues workers configVersion)
    (run : Reaches (fun state event => state.step job event) allowed
      (rescale.begin job settled) system) :
    rescale.Kept job system := by
  have base := continues.base_le
  obtain ⟨rfl, baseEquation, later⟩ := continues
  rw [← baseEquation] at running homed
  have kept := run_invariant (rescale.Kept job) (begin_shaped running)
    (begin_kept running homed base (begin_shaken stale later))
    (fun system event permitted => (guarded system event permitted).1)
    (fun _ _ _ _ _ kept permitted step =>
      step.kept keeps base kept (guarded _ _ permitted).2) run
  exact kept.2

end Rescale

theorem Homed.initial (job : Job K V T VO S L) (workers : IndexSet WorkerId) :
    Homed job.partitioner workers 0 (System.initial job workers) where
  noClone := by simp [System.initial, Worker.build]
  state := by simp [System.initial, Worker.build]
  queue := by simp [System.initial, Worker.build]
  noAcquire := by simp [System.initial]
  dated := by simp [Dated, System.initial]

theorem Settled.homed [DecidableEq K] [MaybeTime T] {job : Job K V T VO S L}
    {admissible : IndexSet WorkerId → Prop}
    {allowed : Rescale → System K V T VO S L → Event K V T → Prop}
    (keeps : job.operator.logic.KeepsKeys)
    (guarded : ∀ rescale system event, allowed rescale system event →
      rescale.Permits system event ∧ rescale.AheadLands job system event)
    {workers : IndexSet WorkerId} {configVersion : Option Version}
    {system : System K V T VO S L}
    (settled : Settled job admissible allowed workers configVersion system) :
    Homed job.partitioner workers (configVersion.getD 0) system := by
  induction settled with
  | start _ => exact Homed.initial job _
  | rescaled rescale history continues _ run completed ih =>
      obtain ⟨running, stale⟩ := history.running fun rescale system event
        permitted => (guarded rescale system event permitted).1
      exact (Rescale.run_kept keeps (guarded rescale) running stale ih continues
        run).homed completed

/-- A worker which is back to normal holds state of its own keys only, as long
as no record of a higher version is kept where its key may not be. -/
theorem upgraded_owns_state [DecidableEq K] [MaybeTime T]
    {job : Job K V T VO S L} {workers : IndexSet WorkerId}
    {configVersion : Option Version} {settled system : System K V T VO S L}
    {rescale : Rescale} {worker : WorkerId}
    (keeps : job.operator.logic.KeepsKeys)
    (history : Settled job (fun _ => True)
      (fun rescale system event => rescale.Permits system event ∧
        rescale.AheadLands job system event) workers configVersion settled)
    (continues : rescale.Continues workers configVersion)
    (run : Reaches (fun state event => state.step job event)
      (fun system event => rescale.Permits system event ∧
        rescale.AheadLands job system event)
      (rescale.begin job settled) system)
    (participant : worker ∈ rescale.participants)
    (upgraded : rescale.Upgraded (system.workers worker)) :
    ∀ key ∈ (system.workers worker).operator.state,
      job.partitioner key rescale.new = worker := by
  obtain ⟨running, stale⟩ := history.running fun _ _ _ => And.left
  exact ((Rescale.run_kept keeps (fun _ _ => id) running stale
    (history.homed keeps fun _ _ _ => id) continues run).owns participant
      upgraded).2.1

theorem countLogic_keepsKeys : countLogic.KeepsKeys where
  onEpoch _ _ _ _ := id
  onSchedule _ _ _ := id

/-- The growth is completed: worker 1 has the state of key 1. -/
def grownTrace : List (Event Nat Unit Nat) :=
  growthTrace ++ [.lifecycle 0, .operator 0, .sink 0, .lifecycle 1,
    .operator 1, .sink 1, .operator 1, .sink 1, .sink 0, .sink 0, .sink 1]

@[irreducible] def grownState : System Nat Unit Nat Nat Nat Unit :=
  replay (fun state event => System.step countJob state event)
    (growth.begin countJob (System.initial countJob growth.old)) grownTrace

theorem grown_owns_state :
    1 ∈ (grownState.workers 1).operator.state ∧
      ∀ key ∈ (grownState.workers 1).operator.state,
        countJob.partitioner key growth.new = 1 := by
  have run : Reaches (fun state event => System.step countJob state event)
      (fun system event => growth.Permits system event ∧
        growth.AheadLands countJob system event)
      (growth.begin countJob (System.initial countJob growth.old))
      grownState := by
    unfold grownState
    exact Follows.reaches grownTrace .refl (by decide +kernel)
  exact ⟨by decide +kernel, upgraded_owns_state countLogic_keepsKeys
    (.start trivial) ⟨rfl, rfl, by simp⟩ run (by decide) (by decide +kernel)⟩

def removal : Rescale where
  old := IndexSet.ofList [0, 1]
  new := IndexSet.ofList [0]
  version := 1
  base := 0

/-- Worker 0 is finished when a record of key 3 arrives there and sends it to
the old owner.  Worker 1 has just been interrogated; it keeps the record, for
it is of a higher version, and never lists the key. -/
def removalTrace : List (Event Nat Unit Nat) :=
  [.receiveLocal 0 (.rescale removal.message), .operator 0, .sink 0,
    .lifecycle 0, .lifecycle 0, .receiveLocal 1 (.rescale removal.message),
    .operator 1, .receiveLocal 0 (.data ⟨3, (), 0⟩), .receiveRemote 1 0,
    .receiveRemote 1 0, .operator 1, .sink 1, .sink 1, .lifecycle 1,
    .lifecycle 1, .operator 1, .sink 1, .lifecycle 1, .receiveRemote 0 1,
    .receiveRemote 0 1, .receiveRemote 0 1, .receiveRemote 1 0, .lifecycle 1]

@[irreducible] def removalState : System Nat Unit Nat Nat Nat Unit :=
  replay (fun state event => System.step countJob state event)
    (removal.begin countJob grownState) removalTrace

/-- Worker 1 is back to normal with the state of key 3, which worker 0 owns. -/
theorem removal_strands_state :
    ∃ settled system : System Nat Unit Nat Nat Nat Unit,
      Settled countJob (fun _ => True) Rescale.Permits removal.old (some 0)
        settled ∧
      removal.Continues removal.old (some 0) ∧
      Reaches (fun state event => System.step countJob state event)
        removal.Permits (removal.begin countJob settled) system ∧
      removal.Upgraded (system.workers 1) ∧
      3 ∈ (system.workers 1).operator.state ∧
      countJob.partitioner 3 removal.new ≠ 1 := by
  have grown : Reaches (fun state event => System.step countJob state event)
      growth.Permits (growth.begin countJob (System.initial countJob growth.old))
      grownState := by
    unfold grownState
    exact Follows.reaches grownTrace .refl (by decide +kernel)
  have settled : Settled countJob (fun _ => True) Rescale.Permits growth.new
      (some growth.version) grownState :=
    .rescaled growth (.start trivial) ⟨rfl, rfl, by simp⟩ trivial grown
      (by decide +kernel)
  have run : Reaches (fun state event => System.step countJob state event)
      removal.Permits (removal.begin countJob grownState) removalState := by
    unfold removalState
    exact Follows.reaches removalTrace .refl (by decide +kernel)
  exact ⟨grownState, removalState, settled, ⟨rfl, rfl, by decide⟩, run,
    by decide +kernel, by decide +kernel, by decide⟩

end Malstrom.Keyed
