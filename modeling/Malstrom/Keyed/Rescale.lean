import Malstrom.Keyed.Move

namespace Malstrom.Keyed

open Data Operators

variable {K V T VO S L : Type}

/-! One rescale of a running system, and the phase each worker is in. -/

/-- A rescale from `old` to `new` at `version`, where the old workers run at
version `base`. -/
structure Rescale where
  old : IndexSet WorkerId
  new : IndexSet WorkerId
  version : Version
  base : Version

/-- The fixed part of a router which is busy with a rescale. -/
structure Handover where
  version : Version
  oldWorkerSet : IndexSet WorkerId
  newWorkerSet : IndexSet WorkerId
  trigger : RescaleMessage

inductive Phase (K : Type) where
  | normal (router : NormalRouter)
  | interrogate (handover : Handover) (tester : K → Bool)
  | collect (handover : Handover)
  | finished (handover : Handover)

namespace MessageRouter

def phase : MessageRouter K V T → Phase K
  | .normal router => .normal router
  | .interrogate router =>
      .interrogate ⟨router.version, router.oldWorkerSet, router.newWorkerSet,
        router.trigger⟩ router.interrogateMsg.tester
  | .collect router =>
      .collect ⟨router.version, router.oldWorkerSet, router.newWorkerSet,
        router.trigger⟩
  | .finished router =>
      .finished ⟨router.version, router.oldWorkerSet, router.newWorkerSet,
        router.trigger⟩

def isNormal : MessageRouter K V T → Bool
  | .normal _ => true
  | .interrogate _ | .collect _ | .finished _ => false

def isFinished : MessageRouter K V T → Bool
  | .finished _ => true
  | .normal _ | .interrogate _ | .collect _ => false

end MessageRouter

theorem Ruled.phase [DecidableEq K] {partitioner : WorkerPartitioner K}
    {thisWorker : WorkerId} {remotes : Remotes T} {arrival : Arrival K V T}
    {router next : MessageRouter K V T} {target : Option WorkerId}
    (rule : Ruled partitioner thisWorker remotes arrival router next target) :
    next.phase = router.phase := by
  cases rule <;> rfl

theorem Routed.phase [DecidableEq K] {partitioner : WorkerPartitioner K}
    {thisWorker : WorkerId} {remotes : Remotes T} {arrival : Arrival K V T}
    {router next : MessageRouter K V T} {target : Option WorkerId}
    (routed : Routed partitioner thisWorker remotes arrival router next
      target) : next.phase = router.phase := by
  cases routed with
  | ahead _ _ => rfl
  | ruled _ rule => exact rule.phase

theorem Distributor.takeReport_phase [DecidableEq K]
    (distributor : Distributor K V T) (report : Report K S) :
    (distributor.takeReport report).router.phase = distributor.router.phase := by
  cases routerEquation : distributor.router <;> cases report <;>
    simp [Distributor.takeReport, routerEquation, MessageRouter.phase]

theorem Distributor.takeReport_remotes [DecidableEq K]
    (distributor : Distributor K V T) (report : Report K S) :
    (distributor.takeReport report).remotes = distributor.remotes := by
  cases routerEquation : distributor.router <;> cases report <;>
    simp [Distributor.takeReport, routerEquation]

namespace Rescale

def message (rescale : Rescale) : RescaleMessage :=
  ⟨rescale.new, rescale.version⟩

def participants (rescale : Rescale) : IndexSet WorkerId :=
  rescale.old.union rescale.new

/-- The worker set a worker starts the rescale with: a worker which joins is
built with all active workers. -/
def buildSet (rescale : Rescale) (worker : WorkerId) : IndexSet WorkerId :=
  if worker ∈ rescale.old then rescale.old else rescale.participants

def buildVersion (rescale : Rescale) (worker : WorkerId) : Version :=
  if worker ∈ rescale.old then rescale.base else 0

/-- The old workers run normally at the base version; the joining ones are
newly built. -/
def initialRouter (rescale : Rescale) (worker : WorkerId) : NormalRouter :=
  ⟨rescale.buildSet worker, rescale.buildVersion worker⟩

def handover (rescale : Rescale) (worker : WorkerId) (version : Version) :
    Handover :=
  ⟨version, rescale.buildSet worker, rescale.new, rescale.message⟩

def tester (rescale : Rescale) (partitioner : WorkerPartitioner K)
    (worker : WorkerId) (key : K) : Bool :=
  decide (partitioner key (rescale.buildSet worker) ≠
    partitioner key rescale.new)

def Started (rescale : Rescale) (current : Worker K V T VO S L) : Prop :=
  rescale.message ∈ current.taken.filterMap Message.rescale?

instance (rescale : Rescale) (current : Worker K V T VO S L) :
    Decidable (rescale.Started current) :=
  inferInstanceAs (Decidable (_ ∈ _))

theorem mem_participants {rescale : Rescale} {worker : WorkerId} :
    worker ∈ rescale.participants ↔
      worker ∈ rescale.old ∨ worker ∈ rescale.new :=
  IndexSet.mem_union

theorem mem_participants_of_mem_buildSet {rescale : Rescale}
    {worker other : WorkerId} (member : other ∈ rescale.buildSet worker) :
    other ∈ rescale.participants := by
  unfold buildSet at member
  split at member
  · exact mem_participants.mpr (.inl member)
  · exact member

/-- What the environment may do: only participants run, the local upstream
brings this rescale and no other, and never again once it is over. -/
structure Permits (rescale : Rescale) (system : System K V T VO S L)
    (event : Event K V T) : Prop where
  participant : event.worker ∈ rescale.participants
  trigger : ∀ trigger ∈ (system.received event).filterMap Message.rescale?,
    trigger = rescale.message ∧
      ((system.workers event.worker).distributor.router.isNormal = true →
        ¬rescale.Started (system.workers event.worker))

instance (rescale : Rescale) (system : System K V T VO S L)
    (event : Event K V T) : Decidable (rescale.Permits system event) :=
  decidable_of_iff (event.worker ∈ rescale.participants ∧
    ∀ trigger ∈ (system.received event).filterMap Message.rescale?,
      trigger = rescale.message ∧
        ((system.workers event.worker).distributor.router.isNormal = true →
          ¬rescale.Started (system.workers event.worker)))
    ⟨fun both => ⟨both.1, both.2⟩, fun permits =>
      ⟨permits.participant, permits.trigger⟩⟩

/-- The phase a worker is in, with what is fixed about its router and with
the clients it holds. -/
inductive Shape (partitioner : WorkerPartitioner K) (rescale : Rescale)
    (worker : WorkerId) (current : Worker K V T VO S L) : Prop
  | waiting
      (phase : current.distributor.router.phase =
        .normal (rescale.initialRouter worker))
      (unstarted : ¬rescale.Started current)
      (clients : ∀ other, other ∈ current.distributor.remotes ↔
        other ∈ rescale.buildSet worker ∧ other ≠ worker)
  | interrogating
      (phase : current.distributor.router.phase =
        .interrogate (rescale.handover worker (rescale.buildVersion worker))
          (rescale.tester partitioner worker))
      (started : rescale.Started current)
      (clients : ∀ other, other ∈ current.distributor.remotes ↔
        other ∈ rescale.participants ∧ other ≠ worker)
  | collecting
      (phase : current.distributor.router.phase =
        .collect (rescale.handover worker rescale.version))
      (started : rescale.Started current)
      (clients : ∀ other, other ∈ current.distributor.remotes ↔
        other ∈ rescale.participants ∧ other ≠ worker)
  | finished
      (phase : current.distributor.router.phase =
        .finished (rescale.handover worker rescale.version))
      (started : rescale.Started current)
      (clients : ∀ other, other ∈ current.distributor.remotes ↔
        other ∈ rescale.participants ∧ other ≠ worker)
  | upgraded
      (phase : current.distributor.router.phase =
        .normal ⟨rescale.new, rescale.version⟩)
      (started : rescale.Started current)
      (clients : ∀ other, other ∈ current.distributor.remotes ↔
        other ∈ rescale.new ∧ other ≠ worker)

end Rescale

inductive Advance (job : Job K V T VO S L) (thisWorker : WorkerId)
    (current next : Worker K V T VO S L) (received : List (Message K V T)) :
    Prop
  | same (phase : next.distributor.router.phase =
        current.distributor.router.phase)
      (clients : ∀ other, other ∈ next.distributor.remotes ↔
        other ∈ current.distributor.remotes)
      (taken : next.taken = current.taken ++ received)
      (noTrigger : received.filterMap Message.rescale? = [])
  | copy (trigger : RescaleMessage) (receivedEquation : received = [.rescale trigger])
      (busy : current.distributor.router.isNormal = false)
      (phase : next.distributor.router.phase =
        current.distributor.router.phase)
      (clients : ∀ other, other ∈ next.distributor.remotes ↔
        other ∈ current.distributor.remotes ∨
          other ∈ trigger.workers ∧ other ≠ thisWorker)
      (taken : next.taken = current.taken ++ received)
  | rescale (trigger : RescaleMessage) (normal : NormalRouter)
      (receivedEquation : received = [.rescale trigger])
      (waiting : current.distributor.router = .normal normal)
      (phase : next.distributor.router.phase = .interrogate
        ⟨normal.version, normal.workerSet, trigger.workers, trigger⟩
        fun key => decide (job.partitioner key normal.workerSet ≠
          job.partitioner key trigger.workers))
      (clients : ∀ other, other ∈ next.distributor.remotes ↔
        other ∈ current.distributor.remotes ∨
          other ∈ trigger.workers ∧ other ≠ thisWorker)
      (taken : next.taken = current.taken ++ received)
  | interrogated (handover : Handover) (tester : K → Bool)
      (interrogating : current.distributor.router.phase =
        .interrogate handover tester)
      (phase : next.distributor.router.phase =
        .collect { handover with version := handover.trigger.version })
      (remotes : next.distributor.remotes = current.distributor.remotes)
      (taken : next.taken = current.taken)
  | concluded (handover : Handover)
      (collecting : current.distributor.router.phase = .collect handover)
      (phase : next.distributor.router.phase =
        .finished { handover with version := handover.trigger.version })
      (remotes : next.distributor.remotes = current.distributor.remotes)
      (taken : next.taken = current.taken)
  | finished (handover : Handover)
      (finished : current.distributor.router.phase = .finished handover)
      (allUpgraded : ∀ state ∈ current.distributor.remotes.values,
        state.lastVersion = some handover.version ∧
          state.lastAckVersion = some handover.version)
      (phase : next.distributor.router.phase =
        .normal ⟨handover.newWorkerSet, handover.version⟩)
      (clients : ∀ other, other ∈ next.distributor.remotes ↔
        other ∈ current.distributor.remotes ∧
          ¬(other ∈ handover.oldWorkerSet ∧ other ∉ handover.newWorkerSet))
      (taken : next.taken = current.taken)

theorem arrivalOf_noTrigger {thisWorker : WorkerId}
    {incoming : Option (WorkerId × NetworkMessage K V T)}
    {received : List (Message K V T)} {arrival : Arrival K V T}
    (arrives : arrivalOf thisWorker incoming received = some arrival) :
    received.filterMap Message.rescale? = [] := by
  unfold arrivalOf at arrives
  split at arrives
  next => rfl
  next => simp [Message.rescale?]
  next => contradiction

theorem Released.fixed {partitioner : WorkerPartitioner K}
    {remotes : Remotes T} {clones : Nat} {router released : CollectRouter K V T}
    {network : List (WorkerId × NetworkMessage K V T)}
    (release : Released partitioner remotes clones router released network) :
    released.version = router.version ∧ released.whitelist = router.whitelist ∧
      released.oldWorkerSet = router.oldWorkerSet ∧
      released.newWorkerSet = router.newWorkerSet ∧
      released.trigger = router.trigger := by
  cases release <;> exact ⟨rfl, rfl, rfl, rfl, rfl⟩

section

variable [DecidableEq K] [MaybeTime T] {job : Job K V T VO S L}
  {thisWorker : WorkerId} {current next : Worker K V T VO S L}
  {incoming : Option (WorkerId × NetworkMessage K V T)}
  {received : List (Message K V T)} {operated : Option (Message K V T)}
  {outgoing : List (WorkerId × NetworkMessage K V T)}

theorem Move.advance
    (move : Move job thisWorker current incoming received operated next
      outgoing) :
    Advance job thisWorker current next received := by
  cases move with
  | quiet sameRouter agree _ _ _ quietReceived =>
      refine .same (congrArg MessageRouter.phase sameRouter) agree.members rfl ?_
      rw [List.filterMap_eq_nil_iff]
      exact fun message member => (quietReceived message member).2
  | kept arrives routed =>
      exact .same routed.phase (fun _ => Iff.rfl) rfl
        (arrivalOf_noTrigger arrives)
  | buffered arrives routed =>
      exact .same routed.phase (fun _ => Iff.rfl) rfl
        (arrivalOf_noTrigger arrives)
  | forwarded arrives routed _ _ =>
      exact .same routed.phase (fun _ => Iff.rfl) rfl
        (arrivalOf_noTrigger arrives)
  | acquire => exact .same rfl (fun _ => Iff.rfl) rfl rfl
  | upgrade =>
      exact .same rfl (fun _ => IndexMap.mem_modify) rfl rfl
  | ackUpgrade =>
      exact .same rfl (fun _ => IndexMap.mem_modify) rfl rfl
  | @rescale trigger normal waiting =>
      exact .rescale trigger normal rfl waiting rfl
        (fun _ => Distributor.mem_addRemotes) rfl
  | @rescaleCopy trigger busy =>
      refine .copy trigger rfl ?_ rfl (fun _ => Distributor.mem_addRemotes) rfl
      cases routerEquation : current.distributor.router with
      | normal normal => exact absurd routerEquation (busy normal)
      | interrogate _ => rfl
      | collect _ => rfl
      | finished _ => rfl
  | @interrogated router interrogating _ =>
      exact .interrogated
        ⟨router.version, router.oldWorkerSet, router.newWorkerSet,
          router.trigger⟩ router.interrogateMsg.tester
        (by rw [interrogating]; rfl) rfl rfl (List.append_nil _)
  | @collectNext router released network key rest collecting release _ =>
      obtain ⟨version, _, old, new, trigger⟩ := release.fixed
      refine .same ?_ (fun _ => Iff.rfl) rfl rfl
      simp [Worker.after, collecting, MessageRouter.phase, version, old, new,
        trigger]
  | @concluded router released network collecting _ _ =>
      exact .concluded
        ⟨router.version, router.oldWorkerSet, router.newWorkerSet,
          router.trigger⟩
        (by rw [collecting]; rfl) rfl rfl (List.append_nil _)
  | @finished router finished allUpgraded =>
      refine .finished
        ⟨router.version, router.oldWorkerSet, router.newWorkerSet,
          router.trigger⟩
        (by rw [finished]; rfl) ?_ rfl ?_ (List.append_nil _)
      · simpa [FinishedRouter.allUpgraded] using allUpgraded
      intro other
      simp only [Worker.after, IndexMap.mem_swapRemoveAll]
      rw [← IndexSet.mem_def, IndexSet.mem_difference]
  | scheduled _ => exact .same rfl (fun _ => Iff.rfl) (List.append_nil _).symm rfl
  | received _ _ reports =>
      subst reports
      exact .same (current.distributor.takeReport_phase _)
        (fun other => by rw [Distributor.takeReport_remotes])
        (List.append_nil _).symm rfl
  | sink => exact .same rfl (fun _ => Iff.rfl) (List.append_nil _).symm rfl

end

namespace Rescale

section

variable {rescale : Rescale} {current next : Worker K V T VO S L}
  {received : List (Message K V T)}

theorem started_append (taken : next.taken = current.taken ++ received) :
    rescale.Started next ↔ rescale.Started current ∨
      rescale.message ∈ received.filterMap Message.rescale? := by
  simp [Started, taken]

theorem started_iff_of_taken (taken : next.taken = current.taken) :
    rescale.Started next ↔ rescale.Started current := by
  simp [Started, taken]

theorem joins {worker other : WorkerId}
    (clients : other ∈ rescale.buildSet worker ∧ other ≠ worker ∨
      other ∈ rescale.new ∧ other ≠ worker) :
    other ∈ rescale.participants ∧ other ≠ worker := by
  rcases clients with ⟨member, different⟩ | ⟨member, different⟩
  · exact ⟨mem_participants_of_mem_buildSet member, different⟩
  · exact ⟨mem_participants.mpr (.inr member), different⟩

theorem mem_buildSet_or_new (worker : WorkerId) {other : WorkerId}
    (member : other ∈ rescale.participants) :
    other ∈ rescale.buildSet worker ∨ other ∈ rescale.new := by
  unfold buildSet
  split
  · exact mem_participants.mp member
  · exact .inl member

/-- The workers a router lets go of are those which leave. -/
theorem mem_new_iff {worker other : WorkerId}
    (member : other ∈ rescale.participants) :
    ¬(other ∈ rescale.buildSet worker ∧ other ∉ rescale.new) ↔
      other ∈ rescale.new := by
  have covered : other ∈ rescale.buildSet worker ∨ other ∈ rescale.new :=
    mem_buildSet_or_new worker member
  tauto

/-- What `Permits` says about the messages a worker takes from upstream. -/
def Triggers (rescale : Rescale) (current : Worker K V T VO S L)
    (received : List (Message K V T)) : Prop :=
  ∀ trigger ∈ received.filterMap Message.rescale?,
    trigger = rescale.message ∧
      (current.distributor.router.isNormal = true → ¬rescale.Started current)

theorem started_of_trigger
    (taken : next.taken = current.taken ++ [.rescale rescale.message]) :
    rescale.Started next := by
  rw [started_append taken]
  exact .inr (by simp [Message.rescale?])

theorem addedClients {worker : WorkerId}
    {remotes : Remotes T} {added : Remotes T}
    (before : ∀ other, other ∈ remotes ↔
      other ∈ rescale.participants ∧ other ≠ worker)
    (clients : ∀ other, other ∈ added ↔ other ∈ remotes ∨
      other ∈ rescale.new ∧ other ≠ worker) (other : WorkerId) :
    other ∈ added ↔ other ∈ rescale.participants ∧ other ≠ worker := by
  rw [clients, before, mem_participants]
  tauto

theorem Shape.advance {job : Job K V T VO S L} {worker : WorkerId}
    (shape : rescale.Shape job.partitioner worker current)
    (advance : Advance job worker current next received)
    (triggers : rescale.Triggers current received) :
    rescale.Shape job.partitioner worker next := by
  cases advance with
  | same phase clients taken noTrigger =>
      have started : rescale.Started next ↔ rescale.Started current := by
        simp [started_append taken, noTrigger]
      cases shape with
      | waiting before unstarted known =>
          exact .waiting (phase.trans before) (mt started.mp unstarted)
            fun other => (clients other).trans (known other)
      | interrogating before begun known =>
          exact .interrogating (phase.trans before) (started.mpr begun)
            fun other => (clients other).trans (known other)
      | collecting before begun known =>
          exact .collecting (phase.trans before) (started.mpr begun)
            fun other => (clients other).trans (known other)
      | finished before begun known =>
          exact .finished (phase.trans before) (started.mpr begun)
            fun other => (clients other).trans (known other)
      | upgraded before begun known =>
          exact .upgraded (phase.trans before) (started.mpr begun)
            fun other => (clients other).trans (known other)
  | copy trigger receivedEquation busy phase clients taken =>
      subst receivedEquation
      obtain ⟨rfl, _⟩ := triggers trigger (by simp [Message.rescale?])
      have begun : rescale.Started next := started_of_trigger taken
      cases shape with
      | waiting before _ _ =>
          cases routerEquation : current.distributor.router <;>
            simp_all [MessageRouter.phase, MessageRouter.isNormal]
      | interrogating before _ known =>
          exact .interrogating (phase.trans before) begun
            (addedClients known clients)
      | collecting before _ known =>
          exact .collecting (phase.trans before) begun
            (addedClients known clients)
      | finished before _ known =>
          exact .finished (phase.trans before) begun
            (addedClients known clients)
      | upgraded before _ _ =>
          cases routerEquation : current.distributor.router <;>
            simp_all [MessageRouter.phase, MessageRouter.isNormal]
  | rescale trigger normal receivedEquation isWaiting phase clients taken =>
      subst receivedEquation
      obtain ⟨rfl, once⟩ := triggers trigger (by simp [Message.rescale?])
      have unstarted := once (by simp [isWaiting, MessageRouter.isNormal])
      have begun : rescale.Started next := started_of_trigger taken
      cases shape with
      | waiting before _ known =>
          rw [isWaiting] at before
          cases before
          refine .interrogating phase begun fun other => ?_
          rw [clients, known]
          constructor
          · exact joins
          · rintro ⟨member, different⟩
            rcases mem_buildSet_or_new worker member with old | new
            · exact .inl ⟨old, different⟩
            · exact .inr ⟨new, different⟩
      | interrogating _ started _ => exact absurd started unstarted
      | collecting _ started _ => exact absurd started unstarted
      | finished _ started _ => exact absurd started unstarted
      | upgraded _ started _ => exact absurd started unstarted
  | interrogated handover tester interrogating phase remotes taken =>
      cases shape with
      | interrogating before begun known =>
          obtain ⟨rfl, rfl⟩ := Phase.interrogate.inj
            (interrogating.symm.trans before)
          exact .collecting phase ((started_iff_of_taken taken).mpr begun)
            (remotes ▸ known)
      | waiting before _ _ => simp [before] at interrogating
      | collecting before _ _ => simp [before] at interrogating
      | finished before _ _ => simp [before] at interrogating
      | upgraded before _ _ => simp [before] at interrogating
  | concluded handover collecting phase remotes taken =>
      cases shape with
      | collecting before begun known =>
          obtain rfl := Phase.collect.inj (collecting.symm.trans before)
          exact .finished phase ((started_iff_of_taken taken).mpr begun)
            (remotes ▸ known)
      | waiting before _ _ => simp [before] at collecting
      | interrogating before _ _ => simp [before] at collecting
      | finished before _ _ => simp [before] at collecting
      | upgraded before _ _ => simp [before] at collecting
  | finished handover isFinished _ phase clients taken =>
      cases shape with
      | finished before begun known =>
          obtain rfl := Phase.finished.inj (isFinished.symm.trans before)
          refine .upgraded phase ((started_iff_of_taken taken).mpr begun)
            fun other => ?_
          rw [clients, known]
          constructor
          · rintro ⟨⟨member, different⟩, keeps⟩
            exact ⟨(mem_new_iff member).mp keeps, different⟩
          · rintro ⟨new, different⟩
            have member : other ∈ rescale.participants :=
              mem_participants.mpr (.inr new)
            exact ⟨⟨member, different⟩, (mem_new_iff member).mpr new⟩
      | waiting before _ _ => simp [before] at isFinished
      | interrogating before _ _ => simp [before] at isFinished
      | collecting before _ _ => simp [before] at isFinished
      | upgraded before _ _ => simp [before] at isFinished

theorem Shape.clients_participate {partitioner : WorkerPartitioner K}
    {worker other : WorkerId} (shape : rescale.Shape partitioner worker current)
    (client : other ∈ current.distributor.remotes) :
    other ∈ rescale.participants ∧ other ≠ worker := by
  cases shape with
  | waiting _ _ clients => exact joins (.inl ((clients other).mp client))
  | interrogating _ _ clients => exact (clients other).mp client
  | collecting _ _ clients => exact (clients other).mp client
  | finished _ _ clients => exact (clients other).mp client
  | upgraded _ _ clients => exact joins (.inr ((clients other).mp client))

end

/-! ### The course of a record -/

/-- How a worker in shape routes a record, by its phase and by the owners of
the key before and after the rescale. -/
inductive Course [DecidableEq K] (rescale : Rescale)
    (partitioner : WorkerPartitioner K) (worker : WorkerId)
    (current : Worker K V T VO S L) (arrival : Arrival K V T) :
    MessageRouter K V T → Option WorkerId → Prop
  | ahead {version : Version} (versionEquation : arrival.version = some version)
      (newer : current.distributor.router.version < version) :
      Course rescale partitioner worker current arrival
        current.distributor.router (some worker)
  | waiting
      (phase : current.distributor.router = .normal (rescale.initialRouter worker))
      (unstarted : ¬rescale.Started current) :
      Course rescale partitioner worker current arrival
        current.distributor.router
        (some (partitioner arrival.message.key (rescale.buildSet worker)))
  | listed {router : InterrogateRouter K}
      (interrogating : current.distributor.router = .interrogate router)
      (version : router.version = rescale.buildVersion worker)
      (oldHere : partitioner arrival.message.key (rescale.buildSet worker) =
        worker)
      (newAway : partitioner arrival.message.key rescale.new ≠ worker) :
      Course rescale partitioner worker current arrival
        (.interrogate { router with
          interrogateMsg := router.interrogateMsg.addKeys [arrival.message.key] })
        (some worker)
  | interrogating {router : InterrogateRouter K}
      (interrogating : current.distributor.router = .interrogate router)
      (version : router.version = rescale.buildVersion worker)
      (stays : partitioner arrival.message.key (rescale.buildSet worker) =
          worker →
        partitioner arrival.message.key rescale.new = worker) :
      Course rescale partitioner worker current arrival
        current.distributor.router
        (some (partitioner arrival.message.key (rescale.buildSet worker)))
  | uncollected {router : CollectRouter K V T}
      (collecting : current.distributor.router = .collect router)
      (version : router.version = rescale.version)
      (newAway : partitioner arrival.message.key rescale.new ≠ worker)
      (listed : arrival.message.key ∈ router.whitelist) :
      Course rescale partitioner worker current arrival
        current.distributor.router (some worker)
  | buffered {router : CollectRouter K V T}
      (collecting : current.distributor.router = .collect router)
      (version : router.version = rescale.version)
      (newAway : partitioner arrival.message.key rescale.new ≠ worker)
      (unlisted : arrival.message.key ∉ router.whitelist)
      (isCollecting : router.isCollecting arrival.message.key = true) :
      Course rescale partitioner worker current arrival
        (.collect { router with buffered := router.buffered ++ [arrival.message] })
        none
  | collected {router : CollectRouter K V T}
      (collecting : current.distributor.router = .collect router)
      (version : router.version = rescale.version)
      (newAway : partitioner arrival.message.key rescale.new ≠ worker)
      (unlisted : arrival.message.key ∉ router.whitelist)
      (idle : router.isCollecting arrival.message.key = false) :
      Course rescale partitioner worker current arrival
        current.distributor.router
        (some (partitioner arrival.message.key rescale.new))
  | collectOwned {router : CollectRouter K V T}
      (collecting : current.distributor.router = .collect router)
      (version : router.version = rescale.version)
      (newHere : partitioner arrival.message.key rescale.new = worker)
      (fromOld : partitioner arrival.message.key (rescale.buildSet worker) =
        arrival.sender) :
      Course rescale partitioner worker current arrival
        current.distributor.router (some worker)
  | collectOld {router : CollectRouter K V T}
      (collecting : current.distributor.router = .collect router)
      (version : router.version = rescale.version)
      (newHere : partitioner arrival.message.key rescale.new = worker)
      (notFromOld : partitioner arrival.message.key (rescale.buildSet worker) ≠
        arrival.sender) :
      Course rescale partitioner worker current arrival
        current.distributor.router
        (some (partitioner arrival.message.key (rescale.buildSet worker)))
  | finishedAway {router : FinishedRouter}
      (finished : current.distributor.router = .finished router)
      (version : router.version = rescale.version)
      (newAway : partitioner arrival.message.key rescale.new ≠ worker) :
      Course rescale partitioner worker current arrival
        current.distributor.router
        (some (partitioner arrival.message.key rescale.new))
  | finishedOwned {router : FinishedRouter}
      (finished : current.distributor.router = .finished router)
      (version : router.version = rescale.version)
      (newHere : partitioner arrival.message.key rescale.new = worker)
      (released :
        partitioner arrival.message.key (rescale.buildSet worker) = worker ∨
        partitioner arrival.message.key (rescale.buildSet worker) =
          arrival.sender ∨
        current.distributor.remotes.lastVersion
          (partitioner arrival.message.key (rescale.buildSet worker)) =
            some rescale.version) :
      Course rescale partitioner worker current arrival
        current.distributor.router (some worker)
  | finishedOld {router : FinishedRouter}
      (finished : current.distributor.router = .finished router)
      (version : router.version = rescale.version)
      (newHere : partitioner arrival.message.key rescale.new = worker)
      (oldAway : partitioner arrival.message.key (rescale.buildSet worker) ≠
        worker)
      (notFromOld : partitioner arrival.message.key (rescale.buildSet worker) ≠
        arrival.sender)
      (holding : current.distributor.remotes.lastVersion
        (partitioner arrival.message.key (rescale.buildSet worker)) ≠
          some rescale.version) :
      Course rescale partitioner worker current arrival
        current.distributor.router
        (some (partitioner arrival.message.key (rescale.buildSet worker)))
  | upgraded
      (phase : current.distributor.router = .normal ⟨rescale.new, rescale.version⟩)
      (started : rescale.Started current) :
      Course rescale partitioner worker current arrival
        current.distributor.router
        (some (partitioner arrival.message.key rescale.new))

theorem Shape.course [DecidableEq K] {partitioner : WorkerPartitioner K}
    {rescale : Rescale} {worker : WorkerId} {current : Worker K V T VO S L}
    {arrival : Arrival K V T} {router : MessageRouter K V T}
    {target : Option WorkerId}
    (shape : rescale.Shape partitioner worker current)
    (routed : Routed partitioner worker current.distributor.remotes arrival
      current.distributor.router router target) :
    rescale.Course partitioner worker current arrival router target := by
  cases routed with
  | ahead versionEquation newer => exact .ahead versionEquation newer
  | ruled known rule =>
      generalize before : current.distributor.router = router' at rule
      cases shape with
      | waiting phase unstarted _ =>
          rw [before] at phase
          cases rule <;> simp only [MessageRouter.phase, reduceCtorEq] at phase
          case normal router =>
            cases phase
            rw [← before]
            exact .waiting before unstarted
      | interrogating phase _ _ =>
          rw [before] at phase
          cases rule <;> simp only [MessageRouter.phase, reduceCtorEq] at phase
          case whitelisted router oldHere newAway =>
            obtain ⟨version, old, new, -⟩ :=
              Handover.mk.inj (Phase.interrogate.inj phase).1
            exact .listed before version (old ▸ oldHere) (new ▸ newAway)
          case interrogate router stays =>
            obtain ⟨version, old, new, -⟩ :=
              Handover.mk.inj (Phase.interrogate.inj phase).1
            rw [old, new] at stays
            rw [old, ← before]
            exact .interrogating before version stays
      | collecting phase _ _ =>
          rw [before] at phase
          cases rule <;> simp only [MessageRouter.phase, reduceCtorEq] at phase
          all_goals
            obtain ⟨version, old, new, -⟩ :=
              Handover.mk.inj (Phase.collect.inj phase)
          case uncollected router newAway listed =>
            rw [← before]
            exact .uncollected before version (new ▸ newAway) listed
          case buffered router newAway unlisted collecting =>
            exact .buffered before version (new ▸ newAway) unlisted collecting
          case collected router newAway unlisted idle =>
            rw [new, ← before]
            exact .collected before version (new ▸ newAway) unlisted idle
          case collectOwned router newHere fromOld =>
            rw [← before]
            exact .collectOwned before version (new ▸ newHere) (old ▸ fromOld)
          case collectOld router newHere notFromOld =>
            rw [old, ← before]
            exact .collectOld before version (new ▸ newHere) (old ▸ notFromOld)
      | finished phase _ _ =>
          rw [before] at phase
          cases rule <;> simp only [MessageRouter.phase, reduceCtorEq] at phase
          all_goals
            obtain ⟨version, old, new, -⟩ :=
              Handover.mk.inj (Phase.finished.inj phase)
          case finishedAway router newAway =>
            rw [new, ← before]
            exact .finishedAway before version (new ▸ newAway)
          case finishedOwned router newHere released =>
            rw [old, version] at released
            rw [← before]
            exact .finishedOwned before version (new ▸ newHere) released
          case finishedOld router newHere oldAway notFromOld holding =>
            rw [old, version] at holding
            rw [old, ← before]
            exact .finishedOld before version (new ▸ newHere) (old ▸ oldAway)
              (old ▸ notFromOld) holding
      | upgraded phase started _ =>
          rw [before] at phase
          cases rule <;> simp only [MessageRouter.phase, reduceCtorEq] at phase
          case normal router =>
            cases phase
            rw [← before]
            exact .upgraded before started

/-! ### Runs of the whole system -/

section

variable [DecidableEq K] [MaybeTime T] {job : Job K V T VO S L}
  {rescale : Rescale} {system next : System K V T VO S L} {event : Event K V T}

def Shaped (rescale : Rescale) (job : Job K V T VO S L)
    (system : System K V T VO S L) : Prop :=
  ∀ worker ∈ rescale.participants,
    rescale.Shape job.partitioner worker (system.workers worker)

/-- A step of the rescale: one participant moves, takes at most the head of a
link from another participant, and stays in shape. -/
structure Step (rescale : Rescale) (job : Job K V T VO S L)
    (system : System K V T VO S L) (event : Event K V T)
    (next : Worker K V T VO S L)
    (outgoing : List (WorkerId × NetworkMessage K V T)) : Prop where
  move : Move job event.worker (system.workers event.worker)
    (system.incoming event) (system.received event) (system.operated event)
    next outgoing
  participant : event.worker ∈ rescale.participants
  head : ∀ arrived ∈ system.incoming event,
    arrived.1 ≠ event.worker ∧
    (system.links arrived.1 event.worker).head? = some arrived.2
  sender : ∀ arrived ∈ system.incoming event,
    arrived.1 ∈ rescale.participants ∧
    arrived.1 ∈ (system.workers event.worker).distributor.remotes
  triggers : rescale.Triggers (system.workers event.worker)
    (system.received event)
  before : rescale.Shape job.partitioner event.worker
    (system.workers event.worker)
  after : rescale.Shape job.partitioner event.worker next

theorem step_cases (shaped : rescale.Shaped job system)
    (permitted : rescale.Permits system event)
    (stepped : system.step job event = .ok next) :
    next = system ∨ ∃ worker outgoing,
      rescale.Step job system event worker outgoing ∧
      next = system.moved event.worker (system.incoming event) worker
        outgoing := by
  rcases System.step_cases stepped with same | ⟨worker, outgoing, move,
    equation⟩
  · exact .inl same
  · have before := shaped event.worker permitted.participant
    refine .inr ⟨worker, outgoing, ⟨move, permitted.participant, ?_, ?_,
      permitted.trigger, before, before.advance move.advance permitted.trigger⟩,
      equation⟩
    · intro message incoming
      have found := System.incoming_head incoming
      exact ⟨(before.clients_participate found.1).2, found.2⟩
    · intro message incoming
      have found := System.incoming_head incoming
      exact ⟨(before.clients_participate found.1).1, found.1⟩

theorem Step.shaped {worker : Worker K V T VO S L}
    {outgoing : List (WorkerId × NetworkMessage K V T)}
    (shaped : rescale.Shaped job system)
    (step : rescale.Step job system event worker outgoing) :
    rescale.Shaped job (system.moved event.worker (system.incoming event)
      worker outgoing) := by
  intro other member
  rw [System.moved_worker]
  split
  next same => exact same ▸ step.after
  next => exact shaped other member

theorem shaped_step (shaped : rescale.Shaped job system)
    (permitted : rescale.Permits system event)
    (stepped : system.step job event = .ok next) :
    rescale.Shaped job next := by
  rcases step_cases shaped permitted stepped with rfl | ⟨_, _, step, rfl⟩
  · exact shaped
  · exact step.shaped shaped

/-- An invariant of a rescale: it holds at the start, and every step from a
state in shape keeps it. -/
theorem run_invariant {allowed : System K V T VO S L → Event K V T → Prop}
    {start : System K V T VO S L} (holds : System K V T VO S L → Prop)
    (shaped : rescale.Shaped job start) (initial : holds start)
    (permits : ∀ system event, allowed system event →
      rescale.Permits system event)
    (preserved : ∀ system event worker outgoing,
      rescale.Shaped job system → holds system → allowed system event →
      rescale.Step job system event worker outgoing →
      holds (system.moved event.worker (system.incoming event) worker outgoing))
    (run : Reaches (fun state event => state.step job event) allowed start system) :
    rescale.Shaped job system ∧ holds system := by
  refine run.invariant (fun state => rescale.Shaped job state ∧ holds state)
    ⟨shaped, initial⟩ ?_
  intro state event later _ both permitted stepped
  have permit := permits _ _ permitted
  refine ⟨shaped_step both.1 permit stepped, ?_⟩
  rcases step_cases both.1 permit stepped with rfl | ⟨worker, outgoing, step, rfl⟩
  · exact both.2
  · exact preserved state event worker outgoing both.1 both.2 permitted step

end

end Rescale

end Malstrom.Keyed
