import Malstrom.Keyed.Order

namespace Malstrom.Keyed

open Data Operators

variable {K V T VO S L : Type}

/-! Who has the state of a key while a rescale moves it: the old owner until it
has collected it, then the message on its way, then the new owner. -/

/-- The operator has state of the key, or a record or a state of the key is in
front of it. -/
def Worker.Holds (current : Worker K V T VO S L) (key : K) : Prop :=
  key ∈ current.operator.state ∨
    ∃ message ∈ current.queue, message.key? = some key

namespace Rescale

/-- The router in charge keeps the record, going by its own worker sets. -/
def Presumes (partitioner : WorkerPartitioner K) (worker : WorkerId)
    (remotes : Remotes T) (arrival : Arrival K V T) :
    MessageRouter K V T → Prop
  | .normal router =>
      partitioner arrival.message.key router.workerSet = worker
  | .interrogate router =>
      partitioner arrival.message.key router.oldWorkerSet = worker
  | .collect router =>
      partitioner arrival.message.key router.newWorkerSet = worker ∧
        (partitioner arrival.message.key router.oldWorkerSet = worker ∨
          partitioner arrival.message.key router.oldWorkerSet = arrival.sender)
  | .finished router =>
      partitioner arrival.message.key router.newWorkerSet = worker ∧
        (partitioner arrival.message.key router.oldWorkerSet = worker ∨
          partitioner arrival.message.key router.oldWorkerSet =
            arrival.sender ∨
          remotes.lastVersion
            (partitioner arrival.message.key router.oldWorkerSet) =
              some router.version)

instance (partitioner : WorkerPartitioner K) (worker : WorkerId)
    (remotes : Remotes T) (arrival : Arrival K V T)
    (router : MessageRouter K V T) :
    Decidable (Presumes partitioner worker remotes arrival router) :=
  match router with
  | .normal _ | .interrogate _ => inferInstanceAs (Decidable (_ = _))
  | .collect _ | .finished _ => inferInstanceAs (Decidable (_ ∧ _))

/-- The worker can tell that the old owner has given up the state of the key:
the record comes from there at the new version, or it has announced. -/
def Vouches (rescale : Rescale) (partitioner : WorkerPartitioner K)
    (remotes : Remotes T) (arrival : Arrival K V T) : Prop :=
  arrival.sender = partitioner arrival.message.key rescale.old ∧
      arrival.version = some rescale.version ∨
    remotes.lastVersion (partitioner arrival.message.key rescale.old) =
      some rescale.version

instance (rescale : Rescale) (partitioner : WorkerPartitioner K)
    (remotes : Remotes T) (arrival : Arrival K V T) :
    Decidable (rescale.Vouches partitioner remotes arrival) :=
  inferInstanceAs (Decidable (_ ∨ _))

section

variable [DecidableEq K]

/-- A record of a higher version, and one which a joining worker keeps by its own
worker sets, is kept by the old owner of its key, or else by the new one, which
can tell that the old one has given up the state. -/
def KeptVouched (rescale : Rescale) (job : Job K V T VO S L)
    (system : System K V T VO S L) (event : Event K V T) : Prop :=
  ∀ arrival ∈ system.arrival event,
    event.worker ≠ job.partitioner arrival.message.key rescale.old →
    ¬rescale.Upgraded (system.workers event.worker) →
    ((∃ version ∈ arrival.version,
        (system.workers event.worker).distributor.router.version < version) ∨
      event.worker ∉ rescale.old ∧
        Presumes job.partitioner event.worker
          (system.workers event.worker).distributor.remotes arrival
          (system.workers event.worker).distributor.router) →
    job.partitioner arrival.message.key rescale.new = event.worker ∧
      rescale.Vouches job.partitioner
        (system.workers event.worker).distributor.remotes arrival

instance (rescale : Rescale) (job : Job K V T VO S L)
    (system : System K V T VO S L) (event : Event K V T) :
    Decidable (rescale.KeptVouched job system event) :=
  inferInstanceAs (Decidable (∀ arrival ∈ system.arrival event, _))

/-- No key is stranded or collected by its new owner, and what is kept is vouched
for. -/
def Careful [MaybeTime T] (rescale : Rescale) (job : Job K V T VO S L)
    (system : System K V T VO S L) (event : Event K V T) : Prop :=
  rescale.AheadLands job system event ∧ rescale.AsksOwned job system event ∧
    rescale.KeptVouched job system event

instance [MaybeTime T] (rescale : Rescale) (job : Job K V T VO S L)
    (system : System K V T VO S L) (event : Event K V T) :
    Decidable (rescale.Careful job system event) :=
  inferInstanceAs (Decidable (_ ∧ _ ∧ _))

end

/-! ### What one step does to a key -/

section

variable [DecidableEq K] [MaybeTime T] {job : Job K V T VO S L}
  {rescale : Rescale} {system : System K V T VO S L} {event : Event K V T}
  {worker : Worker K V T VO S L}
  {outgoing : List (WorkerId × NetworkMessage K V T)} {key : K}

omit [DecidableEq K] [MaybeTime T] in
theorem holds_after {current : Worker K V T VO S L}
    {received output : List (Message K V T)} {distributor : Distributor K V T}
    {network : List (WorkerId × NetworkMessage K V T)}
    (holds : (current.after received distributor
      { output := output, network := network }).Holds key) :
    current.Holds key ∨ ∃ message ∈ output, message.key? = some key := by
  rcases holds with held | ⟨message, queued, found⟩
  · exact .inl (.inl held)
  · rcases List.mem_append.mp queued with before | now
    · exact .inl (.inr ⟨message, before, found⟩)
    · exact .inr ⟨message, now, found⟩

/-- A worker comes to hold a key by a record it keeps or by the state of the
key. -/
theorem Step.holds (keeps : job.operator.logic.KeepsKeys)
    (step : rescale.Step job system event worker outgoing)
    (holds : worker.Holds key) :
    (system.workers event.worker).Holds key ∨
      (∃ arrival router, system.arrival event = some arrival ∧
        arrival.message.key = key ∧
        Routed job.partitioner event.worker
          (system.workers event.worker).distributor.remotes arrival
          (system.workers event.worker).distributor.router router
          (some event.worker)) ∨
      ∃ remote acquire,
        system.incoming event = some (remote, .acquire acquire) ∧
          acquire.key = key := by
  have move := step.move
  unfold System.arrival
  generalize system.incoming event = incoming at move ⊢
  generalize system.received event = received at move ⊢
  generalize system.operated event = operated at move
  cases move with
  | quiet _ _ quietOutput _ _ _ =>
      rcases holds_after holds with before | ⟨message, member, found⟩
      · exact .inl before
      · simp [(Message.key?_of_isQuiet (quietOutput message member)).1] at found
  | kept arrives routed =>
      rcases holds_after holds with before | ⟨message, member, found⟩
      · exact .inl before
      · obtain rfl := List.mem_singleton.mp member
        exact .inr (.inl ⟨_, _, arrives, Option.some.inj found, routed⟩)
  | @acquire remote acquire =>
      rcases holds_after holds with before | ⟨message, member, found⟩
      · exact .inl before
      · obtain rfl := List.mem_singleton.mp member
        exact .inr (.inr ⟨remote, acquire, rfl, Option.some.inj found⟩)
  | collectNext | finished | rescale =>
      rcases holds_after holds with before | ⟨message, member, found⟩
      · exact .inl before
      · obtain rfl := List.mem_singleton.mp member
        cases found
  | scheduled _ =>
      exact .inl (holds.imp_left (StatefulOp.mem_schedule keeps))
  | received head receives _ =>
      left
      rcases holds with held | ⟨message, queued, found⟩
      · have received := congrArg (fun result => result.1.state) receives
        simp only at received
        rw [← received] at held
        rcases StatefulOp.mem_receive keeps held with before | found
        · exact .inl (StatefulOp.mem_schedule keeps before)
        · exact .inr ⟨_, by rw [head]; exact .head _, found⟩
      · exact .inr ⟨message, by rw [head]; exact .tail _ queued, found⟩
  | sink => exact .inl holds
  | _ =>
      rcases holds_after holds with before | ⟨_, member, _⟩
      · exact .inl before
      · cases member

omit [DecidableEq K] [MaybeTime T] in
theorem current_of_released {partitioner : WorkerPartitioner K}
    {remotes : Remotes T} {clones : Nat} {router released : CollectRouter K V T}
    {network : List (WorkerId × NetworkMessage K V T)} {target : WorkerId}
    {acquire : NetworkAcquire K}
    (release : Released partitioner remotes clones router released network)
    (member : (target, .acquire acquire) ∈ network) :
    router.currentKey = some acquire.key := by
  cases release with
  | idle => cases member
  | released _ isCurrent _ =>
      simp only [List.mem_cons, List.mem_map, Prod.mk.injEq, reduceCtorEq,
        and_false, exists_false, or_false, NetworkMessage.acquire.injEq]
        at member
      obtain ⟨-, rfl⟩ := member
      simp [CollectRouter.currentKey, isCurrent]

theorem Step.sends_state
    (step : rescale.Step job system event worker outgoing)
    (unlisted : (system.workers event.worker).distributor.router.Unlisted)
    {target : WorkerId} {acquire : NetworkAcquire K}
    (member : (target, .acquire acquire) ∈ outgoing) :
    (system.workers event.worker).distributor.router.Collects acquire.key ∧
      ¬rescale.Settles job.partitioner acquire.key
        (system.workers event.worker).distributor.router ∧
      rescale.Settles job.partitioner acquire.key
        worker.distributor.router := by
  have move := step.move
  generalize system.incoming event = incoming at move
  generalize system.received event = received at move
  generalize system.operated event = operated at move
  have collects {router released : CollectRouter K V T}
      {network : List (WorkerId × NetworkMessage K V T)}
      (release : Released job.partitioner
        (system.workers event.worker).distributor.remotes
        (system.workers event.worker).clones router released network)
      (member : (target, .acquire acquire) ∈ network) :
      (MessageRouter.collect router).Collects acquire.key := by
    obtain ⟨collect, isCurrent, isKey⟩ :=
      Option.map_eq_some_iff.mp (current_of_released release member)
    exact .inr ⟨collect, isCurrent, isKey⟩
  cases move with
  | quiet _ _ _ quietNetwork _ _ =>
      have quiet := quietNetwork _ member
      simp [NetworkMessage.isQuiet] at quiet
  | @collectNext router released network key rest collecting release next =>
      have collected := collects release member
      have members := (IndexSet.pop_eq_some next).1
      rw [release.fixed.2.1] at members
      have isUnlisted := unlisted router collecting _
        (current_of_released release member)
      rw [collecting]
      refine ⟨collected, fun settles => settles collected, ?_⟩
      rintro (listed | ⟨collect, isNext, isKey⟩)
      · exact isUnlisted ((members _).mpr (.inl listed))
      · refine isUnlisted ((members _).mpr (.inr ?_))
        rw [← isKey, ← Option.some.inj isNext]
        rfl
  | concluded collecting release _ =>
      have sent := (List.mem_append.mp member).resolve_right (by
        simp [broadcast])
      have collected := collects release sent
      rw [collecting]
      exact ⟨collected, fun settles => settles collected, trivial⟩
  | _ => simp at member

theorem Step.state_first
    (step : rescale.Step job system event worker outgoing) :
    outgoing.Pairwise fun _ later => ∀ acquire, later.2 ≠ .acquire acquire := by
  have move := step.move
  generalize system.incoming event = incoming at move
  generalize system.received event = received at move
  generalize system.operated event = operated at move
  have released {router released : CollectRouter K V T}
      {network : List (WorkerId × NetworkMessage K V T)}
      (release : Released job.partitioner
        (system.workers event.worker).distributor.remotes
        (system.workers event.worker).clones router released network) :
      network.Pairwise fun _ later => ∀ acquire, later.2 ≠ .acquire acquire := by
    cases release with
    | idle => exact .nil
    | released =>
        refine List.pairwise_cons.mpr ⟨?_, List.pairwise_map.mpr ?_⟩
        · simp
        · exact List.pairwise_of_forall fun _ _ => by simp
  cases move with
  | quiet _ _ _ quietNetwork _ _ =>
      refine List.pairwise_of_forall_mem_list ?_
      intro _ _ later sent acquire isAcquire
      have quiet := quietNetwork later sent
      simp [isAcquire, NetworkMessage.isQuiet] at quiet
  | forwarded => exact List.pairwise_singleton _ _
  | upgrade => exact List.pairwise_singleton _ _
  | collectNext _ release _ => exact released release
  | concluded _ release _ =>
      refine List.pairwise_append.mpr ⟨released release, ?_, ?_⟩
      · simp only [broadcast]
        exact List.pairwise_map.mpr (List.pairwise_of_forall fun _ _ => by simp)
      · simp [broadcast]
  | _ => exact .nil

omit [MaybeTime T] in
/-- A worker which has given up a key of its own holds it only where it owns it
after the rescale too. -/
theorem owned_of_settles {thisWorker : WorkerId}
    {current : Worker K V T VO S L}
    (shape : rescale.Shape job.partitioner thisWorker current)
    (stationed : rescale.Stationed job.partitioner thisWorker current)
    (former : job.partitioner key (rescale.buildSet thisWorker) = thisWorker)
    (settles : rescale.Settles job.partitioner key current.distributor.router)
    (holds : current.Holds key) :
    job.partitioner key rescale.new = thisWorker := by
  unfold Stationed at stationed
  cases isRouter : current.distributor.router with
  | normal router =>
      rw [isRouter] at stationed settles
      obtain ⟨-, ofState, ofQueue⟩ := stationed
      cases shape with
      | waiting phase _ _ =>
          rw [isRouter] at phase
          obtain rfl := Phase.normal.inj phase
          exact settles.symm.trans former
      | upgraded _ started _ =>
          rcases holds with held | ⟨message, queued, found⟩
          · exact (ofState key held).1 started
          · exact (ofQueue message queued key found).1 started
      | interrogating phase _ _ | collecting phase _ _ | finished phase _ _ =>
          simp [isRouter, MessageRouter.phase] at phase
  | interrogate router =>
      exact ((built_of_settles shape isRouter).mp settles).symm.trans former
  | collect router =>
      rw [isRouter] at stationed settles
      obtain ⟨-, -, ofState, ofQueue⟩ := stationed
      have fits : rescale.Fits job.partitioner thisWorker
          (.collect router : MessageRouter K V T) (rescale.Started current) key ∨
            router.currentKey = some key := by
        rcases holds with held | ⟨message, queued, found⟩
        · exact ofState key held
        · exact ofQueue message queued key found
      rcases fits with (here | listed) | isCurrent
      · exact here
      · exact absurd (.inl listed) settles
      · exact absurd (.inr (Option.map_eq_some_iff.mp isCurrent)) settles
  | finished router =>
      rw [isRouter] at stationed
      obtain ⟨-, ofState, ofQueue⟩ := stationed
      rcases holds with held | ⟨message, queued, found⟩
      · exact ofState key held
      · exact ofQueue message queued key found

end

/-! ### Custody of a key -/

/-- The old owner of the key sends its records to the new owner. -/
def GivenUp (rescale : Rescale) (job : Job K V T VO S L)
    (system : System K V T VO S L) (key : K) : Prop :=
  rescale.Settles job.partitioner key
    (system.workers (job.partitioner key rescale.old)).distributor.router

/-- A record of the key at the new version, or its state. -/
def Bears (rescale : Rescale) (key : K) : NetworkMessage K V T → Prop
  | .data message =>
      message.content.key = key ∧ message.version = rescale.version
  | .acquire acquire => acquire.key = key
  | .epoch _ | .barrierMarker | .suspendMarker | .upgrade _
  | .ackUpgrade _ => False

/-- The state of the key comes behind nothing of the key. -/
def Trails (rescale : Rescale) (key : K)
    (earlier later : NetworkMessage K V T) : Prop :=
  (∃ acquire, later = .acquire acquire ∧ acquire.key = key) →
    ¬rescale.Bears key earlier

/-- The old owner has given up the key and the new owner has got the state. -/
structure Passed (rescale : Rescale) (job : Job K V T VO S L)
    (system : System K V T VO S L) (key : K) : Prop where
  givenUp : rescale.GivenUp job system key
  arrived : ∀ acquire,
    .acquire acquire ∈ system.links (job.partitioner key rescale.old)
      (job.partitioner key rescale.new) → acquire.key ≠ key

structure Custody (rescale : Rescale) (job : Job K V T VO S L)
    (system : System K V T VO S L) (key : K) : Prop where
  holders : ∀ worker ∈ rescale.participants,
    (system.workers worker).Holds key →
      worker = job.partitioner key rescale.old ∨
        worker = job.partitioner key rescale.new ∧
          rescale.Passed job system key
  collects : ∀ worker ∈ rescale.participants,
    (system.workers worker).distributor.router.Collects key →
      worker = job.partitioner key rescale.old
  acquires : ∀ source target acquire,
    .acquire acquire ∈ system.links source target → acquire.key = key →
      source = job.partitioner key rescale.old ∧
        target = job.partitioner key rescale.new
  givenUp : ∀ message ∈ system.links (job.partitioner key rescale.old)
      (job.partitioner key rescale.new), rescale.Bears key message →
    rescale.GivenUp job system key
  ordered : (system.links (job.partitioner key rescale.old)
    (job.partitioner key rescale.new)).Pairwise (rescale.Trails key)
  current : job.partitioner key rescale.old ≠ job.partitioner key rescale.new →
    job.partitioner key rescale.new ∈ rescale.old →
      ∀ message, .data message ∈ system.links
          (job.partitioner key rescale.old) (job.partitioner key rescale.new) →
        message.content.key = key → message.version = rescale.version

section

variable [DecidableEq K] [MaybeTime T] {job : Job K V T VO S L}
  {rescale : Rescale} {system : System K V T VO S L} {event : Event K V T}
  {worker : Worker K V T VO S L}
  {outgoing : List (WorkerId × NetworkMessage K V T)} {key : K}

omit [DecidableEq K] [MaybeTime T] in
theorem settles_of_announced {thisWorker : WorkerId}
    {current : Worker K V T VO S L}
    (shape : rescale.Shape job.partitioner thisWorker current)
    (announced : rescale.Announced current) :
    rescale.Settles job.partitioner key current.distributor.router := by
  rcases shape.announced announced with ⟨router, isRouter, -⟩ | isRouter
  · rw [isRouter]
    trivial
  · rw [isRouter]
    rfl

omit [MaybeTime T] in
theorem Kept.passed_of_upgraded {thisWorker : WorkerId}
    (shaped : rescale.Shaped job system) (kept : rescale.Kept job system)
    (isOwner : job.partitioner key rescale.new = thisWorker)
    (former : job.partitioner key rescale.old ∈ rescale.participants)
    (participant : thisWorker ∈ rescale.participants)
    (upgraded : rescale.Upgraded (system.workers thisWorker)) :
    rescale.Passed job system key where
  givenUp := settles_of_announced (shaped _ former)
    (kept.underway.announced _ participant upgraded _ former)
  arrived acquire linked := by
    obtain ⟨-, -, working⟩ := kept.underway.addressed _ _ acquire linked
    rw [isOwner] at working
    exact absurd upgraded working

omit [MaybeTime T] in
/-- Who has heard the announcement of the old owner has had the state. -/
theorem Kept.passed_of_heard {thisWorker : WorkerId}
    (shaped : rescale.Shaped job system) (kept : rescale.Kept job system)
    (isOwner : job.partitioner key rescale.new = thisWorker)
    (former : job.partitioner key rescale.old ∈ rescale.participants)
    (participant : thisWorker ∈ rescale.participants)
    (different : job.partitioner key rescale.old ≠ thisWorker)
    (working : ¬rescale.Upgraded (system.workers thisWorker))
    (heard : (system.workers thisWorker).distributor.remotes.lastVersion
      (job.partitioner key rescale.old) = some rescale.version) :
    rescale.Passed job system key := by
  have pair := kept.shaken _ _ different former participant
    fun upgraded => absurd upgraded working
  have announced := pair.announced (pair.proper.heard heard)
  refine ⟨settles_of_announced (shaped _ former) announced, ?_⟩
  intro acquire linked
  rw [isOwner] at linked
  exact absurd linked (pair.proper.noAcquire heard acquire)

omit [DecidableEq K] [MaybeTime T] in
/-- A record at the new version comes behind the state. -/
theorem Custody.passed_of_record (custody : rescale.Custody job system key)
    {message : NetworkMessage K V T}
    (head : (system.links (job.partitioner key rescale.old)
      (job.partitioner key rescale.new)).head? = some message)
    (bears : rescale.Bears key message)
    (notState : ∀ acquire, message ≠ .acquire acquire) :
    rescale.Passed job system key := by
  refine ⟨custody.givenUp message (List.mem_of_head? head) bears, ?_⟩
  intro acquire linked isKey
  have ordered := custody.ordered
  cases link : system.links (job.partitioner key rescale.old)
      (job.partitioner key rescale.new) with
  | nil => simp [link] at head
  | cons first rest =>
      rw [link] at head linked ordered
      obtain rfl : first = message := Option.some.inj head
      rcases List.mem_cons.mp linked with same | later
      · exact notState acquire same.symm
      · exact (List.pairwise_cons.mp ordered).1 _ later ⟨acquire, rfl, isKey⟩
          bears

omit [DecidableEq K] [MaybeTime T] in
theorem Shape.version_of_upgraded {thisWorker : WorkerId}
    {current : Worker K V T VO S L}
    (shape : rescale.Shape job.partitioner thisWorker current)
    (upgraded : rescale.Upgraded current) :
    current.distributor.router.version = rescale.version := by
  rcases shape.announced upgraded.announced with
    ⟨router, isRouter, isVersion⟩ | isRouter
  · rw [isRouter]
    exact isVersion
  · rw [isRouter]
    rfl

theorem Step.record_head
    (step : rescale.Step job system event worker outgoing)
    {arrival : Arrival K V T} (arrives : system.arrival event = some arrival)
    (remote : arrival.sender ≠ event.worker) :
    ∃ version, arrival.version = some version ∧
      (system.links arrival.sender event.worker).head? =
        some (.data ⟨arrival.message, version⟩) := by
  have head := step.head
  unfold System.arrival arrivalOf at arrives
  split at arrives
  next sender message incoming _ =>
    obtain rfl := Option.some.inj arrives
    exact ⟨message.version, rfl, (head _ incoming).2⟩
  next =>
    obtain rfl := Option.some.inj arrives
    exact absurd rfl remote
  next => simp at arrives

/-- A record of the new version which comes from the old owner comes behind the
state. -/
theorem Step.passed_from_former {arrival : Arrival K V T}
    (custody : rescale.Custody job system arrival.message.key)
    (step : rescale.Step job system event worker outgoing)
    (arrives : system.arrival event = some arrival)
    (away : event.worker ≠ job.partitioner arrival.message.key rescale.old)
    (isOwner : job.partitioner arrival.message.key rescale.new = event.worker)
    (isSender : arrival.sender =
      job.partitioner arrival.message.key rescale.old)
    (isVersion : ∀ version, arrival.version = some version →
      (system.links (job.partitioner arrival.message.key rescale.old)
        (job.partitioner arrival.message.key rescale.new)).head? =
          some (.data ⟨arrival.message, version⟩) →
      version = rescale.version) :
    rescale.Passed job system arrival.message.key := by
  obtain ⟨version, bears, head⟩ := step.record_head arrives
    (isSender.symm ▸ Ne.symm away)
  rw [isSender, ← isOwner] at head
  exact custody.passed_of_record head ⟨rfl, isVersion version bears head⟩ nofun

theorem Step.passed_of_vouched (selects : Selects job.partitioner)
    (nonempty : rescale.old.items ≠ [])
    (shaped : rescale.Shaped job system) (kept : rescale.Kept job system)
    {arrival : Arrival K V T}
    (custody : rescale.Custody job system arrival.message.key)
    (vouched : rescale.KeptVouched job system event)
    (step : rescale.Step job system event worker outgoing)
    (arrives : system.arrival event = some arrival)
    (away : event.worker ≠ job.partitioner arrival.message.key rescale.old)
    (working : ¬rescale.Upgraded (system.workers event.worker))
    (presumes : (∃ version ∈ arrival.version,
        (system.workers event.worker).distributor.router.version < version) ∨
      event.worker ∉ rescale.old ∧
        Presumes job.partitioner event.worker
          (system.workers event.worker).distributor.remotes arrival
          (system.workers event.worker).distributor.router) :
    event.worker = job.partitioner arrival.message.key rescale.new ∧
      rescale.Passed job system arrival.message.key := by
  have former : job.partitioner arrival.message.key rescale.old ∈
      rescale.participants :=
    mem_participants.mpr (.inl (selects _ _ nonempty))
  obtain ⟨isOwner, ⟨isSender, bears⟩ | heard⟩ :=
    vouched arrival arrives away working presumes
  · refine ⟨isOwner.symm,
      step.passed_from_former custody arrives away isOwner isSender ?_⟩
    intro version isVersion _
    rw [bears] at isVersion
    exact (Option.some.inj isVersion).symm
  · exact ⟨isOwner.symm, kept.passed_of_heard shaped isOwner former
      step.participant (Ne.symm away) working heard⟩

/-- A worker keeps a record of a key which was not its own only where it is the
new owner and has got the state. -/
theorem Step.keeps_passed (selects : Selects job.partitioner)
    (nonempty : rescale.old.items ≠ [])
    (shaped : rescale.Shaped job system) (kept : rescale.Kept job system)
    {arrival : Arrival K V T}
    (custody : rescale.Custody job system arrival.message.key)
    (vouched : rescale.KeptVouched job system event)
    (step : rescale.Step job system event worker outgoing)
    {router : MessageRouter K V T}
    (arrives : system.arrival event = some arrival)
    (routed : Routed job.partitioner event.worker
      (system.workers event.worker).distributor.remotes arrival
      (system.workers event.worker).distributor.router router
      (some event.worker)) :
    event.worker = job.partitioner arrival.message.key rescale.old ∨
      event.worker = job.partitioner arrival.message.key rescale.new ∧
        rescale.Passed job system arrival.message.key := by
  by_cases away : event.worker = job.partitioner arrival.message.key rescale.old
  · exact .inl away
  right
  have former : job.partitioner arrival.message.key rescale.old ∈
      rescale.participants :=
    mem_participants.mpr (.inl (selects _ _ nonempty))
  have fromFormer := step.passed_from_former custody arrives away
  have vouches := step.passed_of_vouched selects nonempty shaped kept custody
    vouched arrives away
  -- an old worker goes by the old worker set, which names another
  have joins (here : job.partitioner arrival.message.key
      (rescale.buildSet event.worker) = event.worker) :
      event.worker ∉ rescale.old := fun old =>
    away ((buildSet_of_old old).1 ▸ here).symm
  have course := step.before.course routed
  generalize isTarget : some event.worker = target at course
  cases course with
  | ahead isVersion newer =>
      refine vouches (fun upgraded => ?_) (.inl ⟨_, isVersion, newer⟩)
      rw [step.before.version_of_upgraded upgraded] at newer
      obtain ⟨message, rfl, linked⟩ := step.arrival_version arrives isVersion
      exact absurd newer (Nat.not_lt.mpr (kept.dated _ _ message linked))
  | waiting phase unstarted =>
      have here := (Option.some.inj isTarget).symm
      refine vouches ?_ (.inr ⟨joins here, ?_⟩)
      · simpa [Upgraded, phase, MessageRouter.phase] using unstarted
      · rw [phase]
        exact here
  | listed interrogating _ here _ =>
      have isOld := (step.before.interrogating_sets interrogating).1
      refine vouches ?_ (.inr ⟨joins here, ?_⟩)
      · simp [Upgraded, interrogating, MessageRouter.phase]
      · rw [interrogating, Presumes, isOld]
        exact here
  | interrogating interrogating _ _ =>
      have here := (Option.some.inj isTarget).symm
      have isOld := (step.before.interrogating_sets interrogating).1
      refine vouches ?_ (.inr ⟨joins here, ?_⟩)
      · simp [Upgraded, interrogating, MessageRouter.phase]
      · rw [interrogating, Presumes, isOld]
        exact here
  | uncollected collecting _ _ listed =>
      refine absurd (custody.collects event.worker step.participant ?_) away
      rw [collecting]
      exact .inl listed
  | buffered => cases isTarget
  | collected _ _ newAway _ _ | finishedAway _ _ newAway =>
      exact absurd (Option.some.inj isTarget).symm newAway
  | collectOwned collecting _ newHere fromOld =>
      by_cases old : event.worker ∈ rescale.old
      · rw [(buildSet_of_old old).1] at fromOld
        refine ⟨newHere.symm, fromFormer newHere fromOld.symm ?_⟩
        intro version _ head
        exact custody.current (newHere ▸ Ne.symm away) (newHere ▸ old) _
          (List.mem_of_head? head) rfl
      · obtain ⟨isOld, isNew⟩ := step.before.collecting_sets collecting
        refine vouches ?_ (.inr ⟨old, ?_⟩)
        · simp [Upgraded, collecting, MessageRouter.phase]
        · rw [collecting, Presumes, isOld, isNew]
          exact ⟨newHere, .inr fromOld⟩
  | collectOld collecting _ newHere _ =>
      have here := (Option.some.inj isTarget).symm
      obtain ⟨isOld, isNew⟩ := step.before.collecting_sets collecting
      refine vouches ?_ (.inr ⟨joins here, ?_⟩)
      · simp [Upgraded, collecting, MessageRouter.phase]
      · rw [collecting, Presumes, isOld, isNew]
        exact ⟨newHere, .inl here⟩
  | finishedOwned finished isVersion newHere released =>
      have working : ¬rescale.Upgraded (system.workers event.worker) := by
        simp [Upgraded, finished, MessageRouter.phase]
      by_cases old : event.worker ∈ rescale.old
      · rw [(buildSet_of_old old).1] at released
        refine ⟨newHere.symm, ?_⟩
        rcases released with here | fromOld | heard
        · exact absurd here.symm away
        · refine fromFormer newHere fromOld.symm ?_
          intro version _ head
          exact custody.current (newHere ▸ Ne.symm away) (newHere ▸ old) _
            (List.mem_of_head? head) rfl
        · exact kept.passed_of_heard shaped newHere former step.participant
            (Ne.symm away) working heard
      · obtain ⟨isOld, isNew⟩ := step.before.finished_sets finished
        refine vouches working (.inr ⟨old, ?_⟩)
        rw [finished, Presumes, isOld, isNew, isVersion]
        exact ⟨newHere, released⟩
  | finishedOld _ _ _ oldAway _ _ =>
      exact absurd (Option.some.inj isTarget).symm oldAway
  | upgraded phase started =>
      have newHere := (Option.some.inj isTarget).symm
      refine ⟨newHere.symm, kept.passed_of_upgraded shaped newHere former
        step.participant ?_⟩
      simpa [Upgraded, phase, MessageRouter.phase] using started

/-! ### One step -/

theorem Step.givenUp
    (tidy : rescale.Tidy job.partitioner event.worker
      (system.workers event.worker).distributor.router)
    (givenUp : rescale.GivenUp job system key)
    (step : rescale.Step job system event worker outgoing) :
    rescale.GivenUp job
      (system.moved event.worker (system.incoming event) worker outgoing)
      key := by
  unfold GivenUp at givenUp ⊢
  rw [System.moved_worker]
  split
  next same =>
    rw [same] at givenUp
    exact settles_of_move tidy step.before givenUp step.move
  next => exact givenUp

theorem Step.passed
    (tidy : rescale.Tidy job.partitioner event.worker
      (system.workers event.worker).distributor.router)
    (passed : rescale.Passed job system key)
    (step : rescale.Step job system event worker outgoing) :
    rescale.Passed job
      (system.moved event.worker (system.incoming event) worker outgoing)
      key where
  givenUp := step.givenUp tidy passed.givenUp
  arrived acquire linked isKey := by
    rcases mem_moved_links linked with before | ⟨isFormer, sent⟩
    · exact passed.arrived acquire before isKey
    · have given := passed.givenUp
      rw [GivenUp, isFormer] at given
      exact (step.sends_state tidy.unlisted sent).2.1 (isKey ▸ given)

/-- The state has come off the link, and nothing else of the key is behind. -/
theorem Step.passed_of_state
    (tidy : rescale.Tidy job.partitioner event.worker
      (system.workers event.worker).distributor.router)
    (custody : rescale.Custody job system key)
    (step : rescale.Step job system event worker outgoing)
    {remote : WorkerId} {acquire : NetworkAcquire K}
    (taken : system.incoming event = some (remote, .acquire acquire))
    (isKey : acquire.key = key) :
    event.worker = job.partitioner key rescale.new ∧
      rescale.Passed job
        (system.moved event.worker (system.incoming event) worker outgoing)
        key := by
  obtain ⟨different, head⟩ := step.head _ taken
  have linked := List.mem_of_head? head
  obtain ⟨rfl, isOwner⟩ := custody.acquires _ _ _ linked isKey
  simp only at different head linked
  refine ⟨isOwner, step.givenUp tidy (custody.givenUp (.acquire acquire)
    (isOwner ▸ linked) isKey), ?_⟩
  intro other later otherKey
  have ordered := custody.ordered
  rw [← isOwner] at later ordered
  rw [System.moved_links, taken] at later
  simp only [Option.map_some, and_self, if_true, if_neg different,
    List.append_nil] at later
  cases link : system.links (job.partitioner key rescale.old) event.worker with
  | nil => simp [link] at head
  | cons first rest =>
      rw [link] at head later ordered
      obtain rfl : first = .acquire acquire := Option.some.inj head
      exact (List.pairwise_cons.mp ordered).1 _ later ⟨other, rfl, otherKey⟩
        isKey

theorem Step.sends_bearing
    (tidy : rescale.Tidy job.partitioner event.worker
      (system.workers event.worker).distributor.router)
    (step : rescale.Step job system event worker outgoing)
    {message : NetworkMessage K V T}
    (sent : (job.partitioner key rescale.new, message) ∈ outgoing)
    (bears : rescale.Bears key message) :
    rescale.Settles job.partitioner key worker.distributor.router := by
  cases message with
  | data record =>
      obtain ⟨rfl, -⟩ := bears
      exact settles_of_sent tidy step.before step.move sent rfl
  | acquire acquire =>
      obtain rfl := bears
      exact (step.sends_state tidy.unlisted sent).2.2
  | epoch | barrierMarker | suspendMarker | upgrade | ackUpgrade => cases bears

theorem Step.custody_ordered
    (tidy : rescale.Tidy job.partitioner event.worker
      (system.workers event.worker).distributor.router)
    (custody : rescale.Custody job system key)
    (step : rescale.Step job system event worker outgoing) :
    ((system.moved event.worker (system.incoming event) worker outgoing).links
      (job.partitioner key rescale.old)
      (job.partitioner key rescale.new)).Pairwise (rescale.Trails key) := by
  rw [System.moved_links]
  refine List.pairwise_append.mpr ⟨?_, ?_, ?_⟩
  · split
    · exact custody.ordered.sublist (List.tail_sublist _)
    · exact custody.ordered
  · split
    next =>
      refine List.pairwise_map.mpr ((step.state_first.imp ?_).filter _)
      rintro _ later notState ⟨acquire, isState, -⟩
      exact absurd isState (notState acquire)
    next => exact .nil
  · rintro earlier linked later sent ⟨acquire, rfl, isKey⟩ bears
    split at sent
    next isFormer =>
      have before : earlier ∈ system.links (job.partitioner key rescale.old)
          (job.partitioner key rescale.new) := by
        split at linked
        · exact List.mem_of_mem_tail linked
        · exact linked
      have given := custody.givenUp earlier before bears
      rw [GivenUp, isFormer] at given
      exact (step.sends_state tidy.unlisted
        (Links.mem_addressedTo.mp sent)).2.1 (isKey ▸ given)
    next => cases sent

theorem Step.custody (selects : Selects job.partitioner)
    (keeps : job.operator.logic.KeepsKeys) (nonempty : rescale.old.items ≠ [])
    (shaped : rescale.Shaped job system) (kept : rescale.Kept job system)
    (tidy : rescale.Tidy job.partitioner event.worker
      (system.workers event.worker).distributor.router)
    (custody : rescale.Custody job system key)
    (careful : rescale.Careful job system event)
    (step : rescale.Step job system event worker outgoing) :
    rescale.Custody job
      (system.moved event.worker (system.incoming event) worker outgoing)
      key where
  holders other member holds := by
    rw [System.moved_worker] at holds
    split at holds
    next same =>
      subst same
      rcases step.holds keeps holds with
        before | ⟨arrival, router, arrives, rfl, routed⟩ |
          ⟨remote, acquire, taken, isKey⟩
      · exact (custody.holders _ member before).imp_right
          (And.imp_right (step.passed tidy))
      · exact (step.keeps_passed selects nonempty shaped kept custody
          careful.2.2 arrives routed).imp_right
            (And.imp_right (step.passed tidy))
      · exact .inr (step.passed_of_state tidy custody taken isKey)
    next =>
      exact (custody.holders other member holds).imp_right
        (And.imp_right (step.passed tidy))
  collects other member collects := by
    rw [System.moved_worker] at collects
    split at collects
    next same =>
      subst same
      rcases step.collects collects with
        before | ⟨newAway, -, arrival, router, arrives, rfl, routed⟩ |
          ⟨asked, held, moves⟩
      · exact custody.collects _ member before
      · refine (step.keeps_passed selects nonempty shaped kept custody
          careful.2.2 arrives routed).resolve_right ?_
        exact fun passed => newAway passed.1.symm
      · refine (custody.holders _ member
          (.inl (StatefulOp.mem_schedule keeps held))).resolve_right ?_
        rintro ⟨isOwner, -⟩
        have stays := careful.2.1 asked key held isOwner.symm
        exact moves (stays.trans isOwner)
    next => exact custody.collects other member collects
  acquires source target acquire linked isKey := by
    rcases mem_moved_links linked with before | ⟨rfl, sent⟩
    · exact custody.acquires source target acquire before isKey
    · have collected := (step.sends_state tidy.unlisted sent).1
      rw [isKey] at collected
      refine ⟨custody.collects _ step.participant collected, ?_⟩
      rw [← isKey]
      exact (step.sends_acquire sent).2.1.symm
  givenUp message linked bears := by
    rcases mem_moved_links linked with before | ⟨isFormer, sent⟩
    · exact step.givenUp tidy (custody.givenUp message before bears)
    · rw [GivenUp, System.moved_worker, if_pos isFormer]
      exact step.sends_bearing tidy sent bears
  ordered := step.custody_ordered tidy custody
  current moves old message linked isKey := by
    rcases mem_moved_links linked with before | ⟨isFormer, sent⟩
    · exact custody.current moves old message before isKey
    · have formerOld : event.worker ∈ rescale.old := by
        rw [← isFormer]
        exact selects key rescale.old nonempty
      rcases addressed_of_move tidy step.before step.move sent with
        ⟨-, isTarget⟩ | ⟨isVersion, -⟩
      · rw [(buildSet_of_old formerOld).1, isKey] at isTarget
        exact absurd isTarget.symm moves
      · exact isVersion

end

end Rescale

end Malstrom.Keyed
