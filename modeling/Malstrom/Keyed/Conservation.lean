import Malstrom.Keyed.Barrier
import Malstrom.Keyed.Overtaking

namespace Malstrom.Keyed

open Data Operators

variable {K V T VO S L : Type}

/-! No record is lost or doubled in a rescale, as long as none is on its way
through a leaving worker when the client of that worker is dropped. -/

section

variable [DecidableEq K] [DecidableEq V] [DecidableEq T]

def Worker.deliveries (current : Worker K V T VO S L)
    (record : DataMessage K V T) : Nat :=
  (current.handed.filterMap Message.data?).count record

/-- How often the worker holds the record back. -/
def Worker.retained (current : Worker K V T VO S L)
    (record : DataMessage K V T) : Nat :=
  current.distributor.router.buffered.count record

end

def Event.isLifecycle : Event K V T → Bool
  | .lifecycle _ => true
  | _ => false

/-- The worker which the event sends records to: the record which has arrived,
or those of the key whose collection is over. -/
def System.addressee? [DecidableEq K] (job : Job K V T VO S L)
    (system : System K V T VO S L) (event : Event K V T) : Option WorkerId :=
  let current := system.workers event.worker
  match system.arrival event with
  | some arrival =>
      (current.distributor.router.routeMessage arrival.message arrival.version
        job.partitioner event.worker arrival.sender
        current.distributor.remotes).2.map Prod.snd
  | none =>
      match event.isLifecycle, current.distributor.router with
      | true, .collect router =>
          if current.clones = 0 then
            router.buffered.head?.map fun message =>
              job.partitioner message.key router.newWorkerSet
          else none
      | _, _ => none

/-- The next lifecycle call ends the rescale. -/
def Distributor.upgrades (distributor : Distributor K V T) : Bool :=
  match distributor.router with
  | .finished router => router.allUpgraded distributor.remotes
  | .normal _ | .interrogate _ | .collect _ => false

namespace Rescale

def deliveries [DecidableEq K] [DecidableEq V] [DecidableEq T]
    (rescale : Rescale) (system : System K V T VO S L)
    (record : DataMessage K V T) : Nat :=
  ∑ worker ∈ rescale.participants.items.toFinset,
    (system.workers worker).deliveries record

def retained [DecidableEq K] [DecidableEq V] [DecidableEq T]
    (rescale : Rescale) (system : System K V T VO S L)
    (record : DataMessage K V T) : Nat :=
  ∑ worker ∈ rescale.participants.items.toFinset,
    (system.workers worker).retained record

/-- A worker ends the rescale only when no record is on its way to it through a
leaving worker, and a leaving worker takes no record from its upstream once the
new owner has ended the rescale.  A joining worker sends records only to workers
which know of it. -/
structure Drains [DecidableEq K] (rescale : Rescale) (job : Job K V T VO S L)
    (system : System K V T VO S L) (event : Event K V T) : Prop where
  ends : event.isLifecycle = true →
    (system.workers event.worker).distributor.upgrades = true →
    ∀ leaving ∈ rescale.participants.items, leaving ∉ rescale.new →
      (∀ message ∈ system.links leaving event.worker,
        message.record? = none) ∧
      ∀ source ∈ rescale.participants.items,
      ∀ message ∈ system.links source leaving, ∀ record ∈ message.record?,
        job.partitioner record.key rescale.new ≠ event.worker
  enters : event.worker ∉ rescale.new →
    ∀ record ∈ (system.received event).filterMap Message.data?,
      ¬rescale.Upgraded
        (system.workers (job.partitioner record.key rescale.new))
  joins : event.worker ∉ rescale.old →
    ∀ target ∈ system.addressee? job event, target ∈ rescale.old →
      rescale.Started (system.workers target)

instance [DecidableEq K] (rescale : Rescale) (job : Job K V T VO S L)
    (system : System K V T VO S L) (event : Event K V T) :
    Decidable (rescale.Drains job system event) :=
  decidable_of_iff
    ((event.isLifecycle = true →
      (system.workers event.worker).distributor.upgrades = true →
      ∀ leaving ∈ rescale.participants.items, leaving ∉ rescale.new →
        (∀ message ∈ system.links leaving event.worker,
          message.record?.isNone = true) ∧
        ∀ source ∈ rescale.participants.items,
        ∀ message ∈ system.links source leaving, ∀ record ∈ message.record?,
          job.partitioner record.key rescale.new ≠ event.worker) ∧
    (event.worker ∉ rescale.new →
      ∀ record ∈ (system.received event).filterMap Message.data?,
        ¬rescale.Upgraded
          (system.workers (job.partitioner record.key rescale.new))) ∧
    (event.worker ∉ rescale.old →
      ∀ target ∈ system.addressee? job event, target ∈ rescale.old →
        rescale.Started (system.workers target)))
    ⟨fun all => ⟨by simpa using all.1, all.2.1, all.2.2⟩,
      fun drains => ⟨by simpa using drains.ends, drains.enters, drains.joins⟩⟩

/-- No joining worker has sent a record to an old one which does not know of
it. -/
def Introduced (rescale : Rescale) (system : System K V T VO S L) : Prop :=
  ∀ source ∈ rescale.new, source ∉ rescale.old → ∀ target ∈ rescale.old,
    ¬rescale.Started (system.workers target) →
      ∀ message, .data message ∉ system.links source target

/-- A record on a link has a reader, and none is on the way through a leaving
worker to one which has ended the rescale. -/
structure Ferried (rescale : Rescale) (job : Job K V T VO S L)
    (system : System K V T VO S L) : Prop where
  announced : ∀ worker ∈ rescale.participants,
    rescale.Upgraded (system.workers worker) →
    ∀ other ∈ rescale.participants, rescale.Announced (system.workers other)
  read : ∀ source target, target ∈ rescale.participants →
    rescale.Upgraded (system.workers target) → source ∉ rescale.new →
    source ∈ rescale.participants →
    ∀ message, .data message ∉ system.links source target
  drained : ∀ source leaving, source ∈ rescale.participants →
    leaving ∈ rescale.participants → leaving ∉ rescale.new →
    ∀ message, .data message ∈ system.links source leaving →
      ¬rescale.Upgraded
        (system.workers (job.partitioner message.content.key rescale.new))

end Rescale

/-! ### The end of a rescale -/

section

variable [DecidableEq K] [MaybeTime T] {job : Job K V T VO S L}

omit [DecidableEq K] [MaybeTime T] in
theorem not_normal_of_finished {router next : MessageRouter K V T}
    (phase : next.phase = router.phase) (finished : router.isFinished = true)
    (normal : next.isNormal = true) : False := by
  cases router <;> cases next <;>
    simp_all [MessageRouter.phase, MessageRouter.isFinished,
      MessageRouter.isNormal]

theorem Move.upgrades {thisWorker : WorkerId}
    {current next : Worker K V T VO S L}
    {incoming : Option (WorkerId × NetworkMessage K V T)}
    {received : List (Message K V T)} {operated : Option (Message K V T)}
    {outgoing : List (WorkerId × NetworkMessage K V T)}
    (move : Move job thisWorker current incoming received operated next
      outgoing)
    (finished : current.distributor.router.isFinished = true)
    (normal : next.distributor.router.isNormal = true) :
    incoming = none ∧ received = [] ∧ outgoing = [] ∧
      current.distributor.upgrades = true := by
  have moves (phase : next.distributor.router.phase =
      current.distributor.router.phase) : False :=
    not_normal_of_finished phase finished normal
  cases move with
  | finished isFinished allUpgraded =>
      exact ⟨rfl, rfl, rfl, by simpa [Distributor.upgrades, isFinished]⟩
  | quiet sameRouter _ _ _ _ _ =>
      exact (moves (congrArg MessageRouter.phase sameRouter)).elim
  | kept _ routed | buffered _ routed | forwarded _ routed _ _ =>
      exact (moves routed.phase).elim
  | received _ _ reports =>
      exact (moves (reports ▸ Distributor.takeReport_phase _ _)).elim
  | acquire | upgrade | ackUpgrade | rescaleCopy | scheduled | sink =>
      exact (moves rfl).elim
  | rescale waiting => simp [waiting, MessageRouter.isFinished] at finished
  | interrogated interrogating _ =>
      simp [interrogating, MessageRouter.isFinished] at finished
  | collectNext collecting _ _ | concluded collecting _ _ =>
      simp [collecting, MessageRouter.isFinished] at finished

theorem System.lifecycle_of_upgraded {system next : System K V T VO S L}
    {event : Event K V T} (stepped : system.step job event = .ok next)
    (finished : (system.workers event.worker).distributor.router.isFinished =
      true)
    (normal : (next.workers event.worker).distributor.router.isNormal = true) :
    event.isLifecycle = true ∧
      (system.workers event.worker).distributor.upgrades = true := by
  have moves (phase : (next.workers event.worker).distributor.router.phase =
      (system.workers event.worker).distributor.router.phase) : False :=
    not_normal_of_finished phase finished normal
  cases event with
  | receiveRemote worker remote =>
      rcases receiveRemote_cases stepped with
        rfl | ⟨message, result, _, _, _, handled, rfl⟩
      · exact (moves rfl).elim
      · have ends := (move_of_receiveRemote handled).upgrades finished
          (by simpa [System.moved_worker, Event.worker] using normal)
        cases ends.1
  | receiveLocal worker message =>
      rcases receiveLocal_cases stepped with
        rfl | ⟨result, _, _, handled, rfl⟩
      · exact (moves rfl).elim
      · have ends := (move_of_receiveLocal handled).upgrades finished
          (by simpa [System.moved_worker, Event.worker] using normal)
        cases ends.2.1
  | tryEmitBarrier worker =>
      obtain rfl := Except.ok.inj stepped
      refine (moves ?_).elim
      simp only [Event.worker, System.install, Function.update_self,
        Distributor.tryEmitBarrier]
      split <;> rfl
  | tryEmitShutdown worker =>
      obtain rfl := Except.ok.inj stepped
      refine (moves ?_).elim
      simp only [Event.worker, System.install, Function.update_self,
        Distributor.tryEmitShutdown]
      split <;> rfl
  | lifecycle worker =>
      simp only [System.step] at stepped
      split at stepped
      next result handled =>
        obtain rfl := Except.ok.inj stepped
        have move : Move job worker (system.workers worker) none [] none _ _ :=
          move_of_lifecycle handled
        have ends := move.upgrades finished
          (by simpa [System.install, Worker.after, Event.worker] using normal)
        exact ⟨rfl, ends.2.2.2⟩
      next => cases stepped
  | operator worker =>
      obtain rfl := Except.ok.inj stepped
      refine (moves ?_).elim
      simp only [Event.worker, System.scheduleOperator]
      split
      next => simp [System.setWorker]
      next =>
        simp only [System.setWorker, Function.update_self]
        exact Distributor.takeReport_phase _ _
  | sink worker =>
      obtain rfl := Except.ok.inj stepped
      exact (moves (by simp [System.setWorker, Event.worker])).elim

end

theorem System.isLifecycle_of_sent [DecidableEq K] [MaybeTime T]
    {job : Job K V T VO S L} {system : System K V T VO S L}
    {event : Event K V T} {worker : Worker K V T VO S L}
    {outgoing : List (WorkerId × NetworkMessage K V T)}
    (stepped : system.step job event = .ok (system.moved event.worker
      (system.incoming event) worker outgoing))
    {target : WorkerId} {message : NetworkMessage K V T}
    (member : (target, message) ∈ outgoing)
    (noIncoming : system.incoming event = none)
    (noReceived : system.received event = []) :
    event.isLifecycle = true := by
  by_contra other
  have same : (system.moved event.worker (system.incoming event) worker
      outgoing).links = system.links := by
    generalize System.moved _ _ _ _ _ = next at stepped ⊢
    cases event with
    | receiveRemote thisWorker remote =>
        simp only [System.step, System.receiveRemote, System.incoming]
          at stepped noIncoming
        split at stepped
        next isOpen =>
          rw [if_pos isOpen, Option.map_eq_none_iff] at noIncoming
          split at stepped
          next => exact congrArg System.links (Except.ok.inj stepped).symm
          next linked => simp [linked] at noIncoming
        next => exact congrArg System.links (Except.ok.inj stepped).symm
    | receiveLocal thisWorker received =>
        simp only [System.step, System.receiveLocal, System.received]
          at stepped noReceived
        split at stepped
        next => exact congrArg System.links (Except.ok.inj stepped).symm
        next free => simp [free] at noReceived
    | tryEmitBarrier thisWorker =>
        obtain rfl := Except.ok.inj stepped
        simp only [System.install, Distributor.tryEmitBarrier]
        split <;> rfl
    | tryEmitShutdown thisWorker =>
        obtain rfl := Except.ok.inj stepped
        simp only [System.install, Distributor.tryEmitShutdown]
        split <;> rfl
    | lifecycle thisWorker => exact absurd rfl other
    | operator thisWorker =>
        obtain rfl := Except.ok.inj stepped
        simp only [System.scheduleOperator]
        split <;> rfl
    | sink thisWorker =>
        obtain rfl := Except.ok.inj stepped
        rfl
  have sent := congrFun (congrFun same event.worker) target
  rw [System.moved_links, noIncoming, if_pos rfl] at sent
  have nothing : Links.addressedTo target outgoing = [] := by
    simpa using sent
  have listed := Links.mem_addressedTo.mpr member
  rw [nothing] at listed
  cases listed

namespace Rescale

/-! ### The readers of the links -/

section

variable [DecidableEq K] [MaybeTime T] {job : Job K V T VO S L}
  {rescale : Rescale} {system : System K V T VO S L} {event : Event K V T}
  {worker : Worker K V T VO S L}
  {outgoing : List (WorkerId × NetworkMessage K V T)}

theorem Step.addressee (step : rescale.Step job system event worker outgoing)
    (tidy : rescale.Tidy job.partitioner event.worker
      (system.workers event.worker).distributor.router)
    (stepped : system.step job event = .ok (system.moved event.worker
      (system.incoming event) worker outgoing))
    {target : WorkerId} {message : NetworkDataMessage K V T}
    (member : (target, .data message) ∈ outgoing) :
    target ∈ system.addressee? job event := by
  have silent := System.isLifecycle_of_sent stepped member
  have move := step.move
  unfold System.addressee? System.arrival
  generalize system.incoming event = incoming at move silent ⊢
  generalize system.received event = received at move silent ⊢
  generalize system.operated event = operated at move
  have ofReleased {router released : CollectRouter K V T}
      {network : List (WorkerId × NetworkMessage K V T)}
      (collecting : (system.workers event.worker).distributor.router =
        .collect router)
      (release : Released job.partitioner
        (system.workers event.worker).distributor.remotes
        (system.workers event.worker).clones router released network)
      (member : (target, .data message) ∈ network) :
      target ∈ (if (system.workers event.worker).clones = 0 then
        router.buffered.head?.map fun message =>
          job.partitioner message.key router.newWorkerSet else none) := by
    have bundled := tidy.bundled
    rw [collecting] at bundled
    cases release with
    | idle _ => cases member
    | @released collect unwrapped current client =>
        rw [if_pos unwrapped]
        simp only [List.mem_cons, List.mem_map, Prod.mk.injEq, reduceCtorEq,
          and_false, false_or, NetworkMessage.data.injEq] at member
        obtain ⟨record, buffered, rfl, -⟩ := member
        cases isBuffered : router.buffered with
        | nil => simp [isBuffered] at buffered
        | cons first rest =>
            have isKey : some collect.key = some first.key := by
              have same := bundled first (by
                show first ∈ router.buffered
                rw [isBuffered]
                exact List.mem_cons_self)
              simpa [MessageRouter.currentKey, CollectRouter.currentKey,
                current] using same
            simp [Option.some.inj isKey]
  cases move with
  | quiet _ _ _ quietNetwork _ _ =>
      have quiet := quietNetwork _ member
      simp [NetworkMessage.isQuiet] at quiet
  | @forwarded _ _ arrival _ _ arrives routed other _ =>
      simp only [List.mem_singleton, Prod.mk.injEq,
        NetworkMessage.data.injEq] at member
      obtain ⟨rfl, rfl⟩ := member
      simp [arrives, routed.routeMessage]
  | collectNext collecting release _ =>
      have isLifecycle := silent rfl rfl
      simp only [arrivalOf, isLifecycle, collecting]
      exact ofReleased collecting release member
  | concluded collecting release _ =>
      have isLifecycle := silent rfl rfl
      simp only [arrivalOf, isLifecycle, collecting]
      rcases List.mem_append.mp member with released | announced
      · exact ofReleased collecting release released
      · simp [broadcast] at announced
  | _ => simp at member

/-- A worker which has announced sends a record only when it takes one: to the
new owner, unless it owns the record itself and has not ended the rescale. -/
theorem Step.forwards (step : rescale.Step job system event worker outgoing)
    (announced : rescale.Announced (system.workers event.worker))
    {target : WorkerId} {message : NetworkDataMessage K V T}
    (member : (target, .data message) ∈ outgoing) :
    ∃ arrival ∈ system.arrival event, arrival.message = message.content ∧
      (job.partitioner message.content.key rescale.new = target ∨
        job.partitioner message.content.key rescale.new = event.worker ∧
          ¬rescale.Upgraded (system.workers event.worker)) := by
  have move := step.move
  unfold System.arrival
  generalize system.incoming event = incoming at move ⊢
  generalize system.received event = received at move ⊢
  generalize system.operated event = operated at move
  cases move with
  | quiet _ _ _ quietNetwork _ _ =>
      have quiet := quietNetwork _ member
      simp [NetworkMessage.isQuiet] at quiet
  | @forwarded _ _ arrival _ _ arrives routed other _ =>
      simp only [List.mem_singleton, Prod.mk.injEq,
        NetworkMessage.data.injEq] at member
      obtain ⟨rfl, rfl⟩ := member
      refine ⟨arrival, arrives, rfl, ?_⟩
      rcases (step.before.forwarded announced routed other).2 with
        owner | ⟨here, -, working⟩
      · exact .inl owner
      · exact .inr ⟨here, working⟩
  | collectNext collecting _ _ | concluded collecting _ _ =>
      exact absurd announced (unannounced_of_collecting collecting)
  | _ => simp at member

theorem Step.introduced (step : rescale.Step job system event worker outgoing)
    (tidy : rescale.Tidy job.partitioner event.worker
      (system.workers event.worker).distributor.router)
    (drains : rescale.Drains job system event)
    (stepped : system.step job event = .ok (system.moved event.worker
      (system.incoming event) worker outgoing))
    (introduced : rescale.Introduced system) :
    rescale.Introduced (system.moved event.worker (system.incoming event) worker
      outgoing) := by
  intro source new joins target old unstarted message member
  have before : ¬rescale.Started (system.workers target) := by
    rw [System.moved_worker] at unstarted
    split at unstarted
    next same =>
      subst same
      exact fun started => unstarted
        ((started_append step.move.taken).mpr (.inl started))
    next => exact unstarted
  rcases mem_moved_links member with linked | ⟨rfl, sent⟩
  · exact introduced source new joins target old before message linked
  · exact before
      (drains.joins joins target (step.addressee tidy stepped sent) old)

theorem Step.arrives (step : rescale.Step job system event worker outgoing)
    {arrival : Arrival K V T} (arrives : arrival ∈ system.arrival event) :
    (∃ version, arrival.sender ∈ rescale.participants ∧
        .data ⟨arrival.message, version⟩ ∈
          system.links arrival.sender event.worker) ∨
      arrival.message ∈ (system.received event).filterMap Message.data? := by
  rcases arrivalOf_cases arrives with
    ⟨version, incoming, -, -⟩ | ⟨-, received, -⟩
  · exact .inl ⟨version, (step.sender _ incoming).1,
      List.mem_of_head? (step.head _ incoming).2⟩
  · exact .inr (by simp [received, Message.data?])

/-- A leaving worker gets no record on the way to a worker which has ended the
rescale. -/
theorem Ferried.arrives (ferried : rescale.Ferried job system)
    (drains : rescale.Drains job system event)
    (step : rescale.Step job system event worker outgoing)
    (leaves : event.worker ∉ rescale.new) {arrival : Arrival K V T}
    (arrives : arrival ∈ system.arrival event) :
    ¬rescale.Upgraded
      (system.workers (job.partitioner arrival.message.key rescale.new)) := by
  rcases step.arrives arrives with ⟨version, sender, linked⟩ | entered
  · exact ferried.drained arrival.sender event.worker sender step.participant
      leaves _ linked
  · exact drains.enters leaves _ entered

/-- A worker which leaves sends no record to one which has ended the rescale. -/
theorem Ferried.unsent (ferried : rescale.Ferried job system)
    (owned : ∀ key, job.partitioner key rescale.new ∈ rescale.new)
    (drains : rescale.Drains job system event)
    (step : rescale.Step job system event worker outgoing)
    (leaves : event.worker ∉ rescale.new) {target : WorkerId}
    (participant : target ∈ rescale.participants)
    (upgraded : rescale.Upgraded (system.workers target))
    (message : NetworkDataMessage K V T) :
    (target, .data message) ∉ outgoing := by
  intro member
  have announced := ferried.announced target participant upgraded event.worker
    step.participant
  obtain ⟨arrival, arrives, same, owner | ⟨here, -⟩⟩ :=
    step.forwards announced member
  · have working := ferried.arrives drains step leaves arrives
    rw [same, owner] at working
    exact working upgraded
  · exact leaves (here ▸ owned message.content.key)

/-- No record is sent to a worker which leaves once its owner has ended the
rescale. -/
theorem Ferried.kept (ferried : rescale.Ferried job system)
    (owned : ∀ key, job.partitioner key rescale.new ∈ rescale.new)
    (step : rescale.Step job system event worker outgoing)
    {leaving : WorkerId} (leaves : leaving ∉ rescale.new)
    {message : NetworkDataMessage K V T}
    (upgraded : rescale.Upgraded
      (system.workers (job.partitioner message.content.key rescale.new))) :
    (leaving, .data message) ∉ outgoing := by
  intro member
  have participant := mem_participants.mpr (.inr (owned message.content.key))
  have announced := ferried.announced _ participant upgraded event.worker
    step.participant
  obtain ⟨-, -, -, owner | ⟨here, working⟩⟩ := step.forwards announced member
  · exact leaves (owner ▸ owned message.content.key)
  · exact working (here ▸ upgraded)

theorem Step.ferried (owned : ∀ key, job.partitioner key rescale.new ∈ rescale.new)
    (shaken : rescale.Shaken job system) (ferried : rescale.Ferried job system)
    (drains : rescale.Drains job system event)
    (ends : ¬rescale.Upgraded (system.workers event.worker) →
      rescale.Upgraded worker → event.isLifecycle = true ∧
        (system.workers event.worker).distributor.upgrades = true)
    (step : rescale.Step job system event worker outgoing) :
    rescale.Ferried job
      (system.moved event.worker (system.incoming event) worker outgoing) := by
  -- what a worker which has just ended the rescale has waited for
  have drained (working : ¬rescale.Upgraded (system.workers event.worker))
      (upgraded : rescale.Upgraded worker) {leaving : WorkerId}
      (participant : leaving ∈ rescale.participants)
      (leaves : leaving ∉ rescale.new) :
      (∀ message ∈ system.links leaving event.worker,
        message.record? = none) ∧
      ∀ source ∈ rescale.participants,
      ∀ message ∈ system.links source leaving, ∀ record ∈ message.record?,
        job.partitioner record.key rescale.new ≠ event.worker := by
    obtain ⟨isLifecycle, upgrades⟩ := ends working upgraded
    exact drains.ends isLifecycle upgrades leaving participant leaves
  refine ⟨step.announced_of_upgraded shaken ferried.announced, ?_, ?_⟩
  · intro source target participant upgraded leaves inside message member
    rw [System.moved_worker] at upgraded
    by_cases before : rescale.Upgraded (system.workers target)
    · rcases mem_moved_links member with linked | ⟨rfl, sent⟩
      · exact ferried.read source target participant before leaves inside _
          linked
      · exact ferried.unsent owned drains step leaves participant before message
          sent
    · split at upgraded
      next same =>
        subst same
        rcases mem_moved_links member with linked | ⟨rfl, sent⟩
        · have silent := (drained before upgraded inside leaves).1 _ linked
          cases silent
        · exact (step.before.clients_participate (step.sends_data sent).2).2 rfl
      next => exact before upgraded
  · intro source leaving sender participant leaves message member upgraded
    rw [System.moved_worker] at upgraded
    by_cases before : rescale.Upgraded
        (system.workers (job.partitioner message.content.key rescale.new))
    · rcases mem_moved_links member with linked | ⟨rfl, sent⟩
      · exact ferried.drained source leaving sender participant leaves message
          linked before
      · exact ferried.kept owned step leaves before sent
    · split at upgraded
      next same =>
        rw [same] at before
        rcases mem_moved_links member with linked | ⟨rfl, sent⟩
        · exact (drained before upgraded participant leaves).2 source sender _
            linked message.content rfl same
        · obtain ⟨finished, normal⟩ := step.finished_of_upgraded before upgraded
          rw [(step.move.upgrades finished normal).2.2.1] at sent
          cases sent
      next => exact before upgraded

end

/-! ### The places of a record -/

section

variable [DecidableEq K] [DecidableEq V] [DecidableEq T] [MaybeTime T]
  {job : Job K V T VO S L} {rescale : Rescale} {system : System K V T VO S L}
  {event : Event K V T} {worker : Worker K V T VO S L}
  {outgoing : List (WorkerId × NetworkMessage K V T)}

omit [MaybeTime T] in
theorem load_copies (source : WorkerId) (record : DataMessage K V T)
    (outgoing : List (WorkerId × NetworkMessage K V T)) :
    Links.load (fun _ _ message =>
        if message.record? = some record then 1 else 0) source outgoing =
      ((dispatched outgoing).map Prod.snd).count record := by
  induction outgoing with
  | nil => rfl
  | cons addressed rest ih =>
      rw [Links.load_cons, ih]
      cases isRecord : addressed.2.record? with
      | none =>
          have skipped : dispatched (addressed :: rest) = dispatched rest :=
            List.filterMap_cons_none (by simp [isRecord])
          simp [skipped]
      | some carried =>
          have counted : dispatched (addressed :: rest) =
              (addressed.1, carried) :: dispatched rest :=
            List.filterMap_cons_some (by simp [isRecord])
          simp [counted, List.count_cons, Nat.add_comm]

omit [MaybeTime T] in
/-- What a worker takes it hands to its operators, holds back or sends. -/
theorem Passage.balance {thisWorker : WorkerId}
    {current next : Worker K V T VO S L}
    {incoming : Option (WorkerId × NetworkMessage K V T)}
    {received : List (Message K V T)}
    (passage : rescale.Passage job.partitioner thisWorker current next incoming
      received outgoing) (record : DataMessage K V T) :
    next.deliveries record + next.retained record +
        ((dispatched outgoing).map Prod.snd).count record =
      current.deliveries record + current.retained record +
        (incoming.elim 0 fun arrived =>
          if arrived.2.record? = some record then 1 else 0) +
        (received.filterMap Message.data?).count record := by
  cases passage with
  | rests noneArrives noneEnters sends holds hands =>
      have nothing : (incoming.elim 0 fun arrived =>
          if arrived.2.record? = some record then 1 else 0) = 0 := by
        cases incoming with
        | none => rfl
        | some arrived => simp [noneArrives arrived rfl]
      simp [Worker.deliveries, Worker.retained, noneEnters, sends, holds, hands,
        nothing]
  | releases sends holds hands =>
      simp [Worker.deliveries, Worker.retained, sends, holds, hands,
        Function.comp_def]
  | @routes _ _ _ arrival target arrives _ sends holds hands =>
      have taken : (incoming.elim 0 fun arrived =>
            if arrived.2.record? = some record then 1 else 0) +
          (received.filterMap Message.data?).count record =
            [arrival.message].count record := by
        rcases arrivalOf_cases arrives with
          ⟨version, rfl, rfl, -⟩ | ⟨rfl, rfl, -⟩
        · simp [NetworkMessage.record?, NetworkMessage.data?,
            List.count_singleton]
        · simp [Message.data?]
      have given : [arrival.message].count record =
          (if target = some thisWorker then [arrival.message] else []).count
              record +
            (if target = none then [arrival.message] else []).count record +
            (((target.toList.filter fun worker =>
                decide (worker ≠ thisWorker)).map fun worker =>
              (worker, arrival.message)).map Prod.snd).count record := by
        cases target with
        | none => simp
        | some target => by_cases here : target = thisWorker <;> simp [here]
      simp only [Worker.deliveries, Worker.retained, holds, hands,
        List.count_append, sends]
      omega

/-- Every record which has entered, or was on its way when the rescale began,
is in as many places as it has come in. -/
def Balanced (rescale : Rescale) (settled system : System K V T VO S L) : Prop :=
  ∀ record, rescale.entries system record + rescale.copies settled record =
    rescale.deliveries system record + rescale.retained system record +
      rescale.copies system record

theorem Step.balanced {settled : System K V T VO S L}
    (tidy : rescale.Tidy job.partitioner event.worker
      (system.workers event.worker).distributor.router)
    (balanced : rescale.Balanced settled system)
    (step : rescale.Step job system event worker outgoing) :
    rescale.Balanced settled
      (system.moved event.worker (system.incoming event) worker outgoing) := by
  intro record
  have inside : event.worker ∈ rescale.participants.items.toFinset :=
    List.mem_toFinset.mpr step.participant
  have balance := (passage_of_move tidy step.before step.move).balance record
  have linked := weight_moved worker outgoing (fun _ _ message =>
      if message.record? = some record then 1 else 0) inside
    (fun arrived incoming =>
      ⟨List.mem_toFinset.mpr (step.sender arrived incoming).1,
        (step.head arrived incoming).2⟩) fun addressed member weighs =>
      List.mem_toFinset.mpr (step.sends_record member fun silent =>
        weighs (by simp [silent])).1
  rw [load_copies] at linked
  have entered : rescale.entries (system.moved event.worker
      (system.incoming event) worker outgoing) record =
        rescale.entries system record +
          ((system.received event).filterMap Message.data?).count record :=
    sum_gain inside
      (fun other _ different => by simp [System.moved_worker, different])
      (by simp [System.moved_worker, Worker.entries, step.move.taken])
  have before := balanced record
  have parts (state : System K V T VO S L) :
      rescale.deliveries state record + rescale.retained state record =
        ∑ other ∈ rescale.participants.items.toFinset,
          ((state.workers other).deliveries record +
            (state.workers other).retained record) :=
    Finset.sum_add_distrib.symm
  rw [parts] at before ⊢
  rw [← Finset.add_sum_erase _ _ inside] at before ⊢
  have others : ∑ other ∈ rescale.participants.items.toFinset.erase event.worker,
      (((system.moved event.worker (system.incoming event) worker
          outgoing).workers other).deliveries record +
        ((system.moved event.worker (system.incoming event) worker
          outgoing).workers other).retained record) =
      ∑ other ∈ rescale.participants.items.toFinset.erase event.worker,
        ((system.workers other).deliveries record +
          (system.workers other).retained record) :=
    Finset.sum_congr rfl fun other member => by
      simp only [System.moved_worker, if_neg (Finset.ne_of_mem_erase member)]
  rw [others, entered]
  simp only [System.moved_worker, if_true, copies] at before linked ⊢
  omega

omit [MaybeTime T] in
theorem begin_balanced {settled : System K V T VO S L}
    (running : Running rescale.old rescale.base settled) :
    rescale.Balanced settled (rescale.begin job settled) := by
  intro record
  have nothing (worker : WorkerId) (member : worker ∈ rescale.participants) :
      ((rescale.begin job settled).workers worker).entries record = 0 ∧
        ((rescale.begin job settled).workers worker).deliveries record = 0 ∧
        ((rescale.begin job settled).workers worker).retained record = 0 := by
    obtain ⟨taken, handed⟩ : ((rescale.begin job settled).workers
        worker).taken = [] ∧ _ := begin_histories member
    refine ⟨?_, ?_, ?_⟩
    · simp [Worker.entries, taken]
    · simp [Worker.deliveries, handed]
    · simp [Worker.retained, begin_buffered running member]
  have entries : rescale.entries (rescale.begin job settled) record = 0 :=
    Finset.sum_eq_zero fun worker inside =>
      (nothing worker (List.mem_toFinset.mp inside)).1
  have deliveries : rescale.deliveries (rescale.begin job settled) record = 0 :=
    Finset.sum_eq_zero fun worker inside =>
      (nothing worker (List.mem_toFinset.mp inside)).2.1
  have retained : rescale.retained (rescale.begin job settled) record = 0 :=
    Finset.sum_eq_zero fun worker inside =>
      (nothing worker (List.mem_toFinset.mp inside)).2.2
  rw [entries, deliveries, retained]
  rfl

omit [DecidableEq K] [DecidableEq V] [DecidableEq T] [MaybeTime T] in
theorem begin_ferried {settled : System K V T VO S L}
    (running : Running rescale.old rescale.base settled)
    (owned : ∀ key, job.partitioner key rescale.new ∈ rescale.new) :
    rescale.Ferried job (rescale.begin job settled) where
  announced _ member upgraded :=
    absurd upgraded (begin_working running member)
  read _ _ member upgraded := absurd upgraded (begin_working running member)
  drained _ _ _ _ _ message _ :=
    begin_working running
      (mem_participants.mpr (.inr (owned message.content.key)))

omit [DecidableEq K] [DecidableEq V] [DecidableEq T] [MaybeTime T] in
/-- What a worker has no client for are itself, the leaving workers once it has
ended the rescale, and the joining ones until it knows of them. -/
theorem Shape.client {thisWorker other : WorkerId}
    {current : Worker K V T VO S L}
    (shape : rescale.Shape job.partitioner thisWorker current)
    (participant : other ∈ rescale.participants) (different : other ≠ thisWorker)
    (kept : rescale.Upgraded current → other ∈ rescale.new)
    (known : thisWorker ∈ rescale.old → other ∉ rescale.old →
      rescale.Started current) :
    other ∈ current.distributor.remotes := by
  cases shape with
  | waiting _ unstarted clients =>
      refine (clients other).mpr ⟨?_, different⟩
      unfold buildSet
      split
      next old =>
        by_contra joins
        exact unstarted (known old joins)
      next => exact participant
  | interrogating _ _ clients | collecting _ _ clients
  | finished _ _ clients =>
      exact (clients other).mpr ⟨participant, different⟩
  | upgraded phase started clients =>
      have upgraded : rescale.Upgraded current := by
        unfold Upgraded
        rw [phase]
        exact started
      exact (clients other).mpr ⟨kept upgraded, different⟩

end

end Rescale

/-- Every record is in exactly one place: handed to the operators of one worker,
in one buffer, or on a link which its addressee holds the client for. -/
theorem records_conserved [DecidableEq K] [DecidableEq V] [DecidableEq T]
    [MaybeTime T] {job : Job K V T VO S L} {workers : IndexSet WorkerId}
    {configVersion : Option Version} {settled system : System K V T VO S L}
    {rescale : Rescale} (selects : Rescale.Selects job.partitioner)
    (history : Settled job (fun _ => True) Rescale.Permits workers
      configVersion settled)
    (continues : rescale.Continues workers configVersion)
    (nonempty : rescale.new.items ≠ [])
    (clean : ∀ source ∈ rescale.new, source ∉ rescale.old →
      ∀ target ∈ rescale.old, ∀ message ∈ settled.links source target,
        message.record? = none)
    (run : Reaches (fun state event => state.step job event)
      (fun system event => rescale.Permits system event ∧
        rescale.Drains job system event)
      (rescale.begin job settled) system) :
    (∀ record, rescale.entries system record + rescale.copies settled record =
      rescale.deliveries system record + rescale.retained system record +
        rescale.copies system record) ∧
    (∀ source ∈ rescale.participants, ∀ target ∈ rescale.participants,
      source ≠ target → ∀ message ∈ system.links source target,
        message.record? ≠ none →
          source ∈ (system.workers target).distributor.remotes) ∧
    ∀ source ∈ rescale.participants, ∀ target ∈ rescale.participants,
      rescale.Upgraded (system.workers target) → source ∉ rescale.new →
        ∀ message ∈ system.links source target, message.record? = none := by
  have owned (key : K) : job.partitioner key rescale.new ∈ rescale.new :=
    selects key rescale.new nonempty
  have shakes {state : System K V T VO S L}
      (reached : Reaches (fun state event => state.step job event)
        (fun system event => rescale.Permits system event ∧
          rescale.Drains job system event) (rescale.begin job settled) state) :
      rescale.Shaped job state ∧ rescale.Shaken job state :=
    history.shaken (fun _ _ _ => id) continues
      (reached.mono fun _ _ allowed => allowed.1)
  obtain ⟨running, -⟩ := history.running fun _ _ _ => id
  obtain ⟨rfl, baseEquation, -⟩ := continues
  rw [← baseEquation] at running
  have unmet : rescale.Introduced (rescale.begin job settled) := by
    intro source new joins target old _ message linked
    cases clean source new joins target old _ linked
  obtain ⟨-, ferried, introduced, balanced⟩ := run.invariant (fun state =>
      (∀ worker ∈ rescale.participants, rescale.Tidy job.partitioner worker
        (state.workers worker).distributor.router) ∧
      rescale.Ferried job state ∧ rescale.Introduced state ∧
      rescale.Balanced settled state)
    ⟨fun worker member => by
        rw [Rescale.begin_router running member]
        exact ⟨fun _ => False.elim, nofun, nofun, nofun⟩,
      Rescale.begin_ferried running owned, unmet,
      Rescale.begin_balanced running⟩ <| by
    rintro state event next reached ⟨tidy, ferried, introduced, balanced⟩
      ⟨permitted, drains⟩ stepped
    obtain ⟨shaped, shaken⟩ := shakes reached
    rcases Rescale.step_cases shaped permitted stepped with
      rfl | ⟨worker, outgoing, step, rfl⟩
    · exact ⟨tidy, ferried, introduced, balanced⟩
    · have here := tidy event.worker step.participant
      refine ⟨fun other member => ?_, step.ferried owned shaken ferried drains ?_,
        step.introduced here drains stepped introduced,
        step.balanced here balanced⟩
      · rw [System.moved_worker]
        split
        next same => exact same ▸ step.tidy here
        next => exact tidy other member
      · intro working upgraded
        obtain ⟨finished, normal⟩ := step.finished_of_upgraded working upgraded
        exact System.lifecycle_of_upgraded stepped finished
          (by simpa [System.moved_worker] using normal)
  obtain ⟨shaped, -⟩ := shakes run
  have unread {source target : WorkerId} (sender : source ∈ rescale.participants)
      (receiver : target ∈ rescale.participants)
      (upgraded : rescale.Upgraded (system.workers target))
      (leaves : source ∉ rescale.new) (message : NetworkMessage K V T)
      (linked : message ∈ system.links source target) :
      message.record? = none := by
    cases isRecord : message.record? with
    | none => rfl
    | some record =>
        obtain ⟨version, rfl⟩ := record?_eq_some.mp isRecord
        exact absurd linked
          (ferried.read source target receiver upgraded leaves sender _)
  refine ⟨balanced, ?_, fun source sender target receiver upgraded leaves =>
    unread sender receiver upgraded leaves⟩
  intro source sender target receiver different message linked carries
  refine (shaped target receiver).client sender different ?_ ?_
  · intro upgraded
    by_contra leaves
    exact carries (unread sender receiver upgraded leaves message linked)
  · intro old joins
    by_contra unstarted
    have new := (Rescale.mem_participants.mp sender).resolve_left joins
    cases isRecord : message.record? with
    | none => exact carries isRecord
    | some record =>
        obtain ⟨version, rfl⟩ := record?_eq_some.mp isRecord
        exact introduced source new joins target old unstarted _ linked

/-- Worker 1 leaves.  Worker 0 sends it a record of key 3 before it hears that
worker 1 has announced, and ends the rescale before worker 1 sends it back. -/
def lossTrace : List (Event Nat Unit Nat) :=
  [.receiveLocal 0 (.rescale removal.message), .operator 0, .sink 0,
    .lifecycle 0, .lifecycle 0, .receiveLocal 1 (.rescale removal.message),
    .operator 1, .sink 1, .lifecycle 1, .lifecycle 1, .receiveRemote 1 0,
    .receiveLocal 0 (.data ⟨3, (), 0⟩), .receiveRemote 0 1,
    .receiveRemote 0 1, .lifecycle 0, .receiveRemote 1 0]

@[irreducible] def lossState : System Nat Unit Nat Nat Nat Unit :=
  replay (fun state event => System.step countJob state event)
    (removal.begin countJob (System.initial countJob removal.old)) lossTrace

/-- Worker 1 joins and sends a record of key 2 before worker 0 hears of it. -/
def earlyTrace : List (Event Nat Unit Nat) :=
  [.receiveLocal 1 (.data ⟨2, (), 0⟩)]

@[irreducible] def earlyState : System Nat Unit Nat Nat Nat Unit :=
  replay (fun state event => System.step countJob state event)
    (growth.begin countJob (System.initial countJob growth.old)) earlyTrace

/-- The only place of the record is a link whose addressee has no client: it has
dropped the one of the leaving worker, or has none of the joining one yet. -/
theorem rescales_strand_records :
    (Reaches (fun state event => System.step countJob state event)
        removal.Permits
        (removal.begin countJob (System.initial countJob removal.old))
        lossState ∧
      removal.entries lossState ⟨3, (), 0⟩ = 1 ∧
      removal.deliveries lossState ⟨3, (), 0⟩ = 0 ∧
      removal.retained lossState ⟨3, (), 0⟩ = 0 ∧
      (lossState.links 1 0).filterMap NetworkMessage.record? =
        [⟨3, (), 0⟩] ∧
      1 ∉ (lossState.workers 0).distributor.remotes) ∧
    (Reaches (fun state event => System.step countJob state event)
        growth.Permits
        (growth.begin countJob (System.initial countJob growth.old))
        earlyState ∧
      growth.entries earlyState ⟨2, (), 0⟩ = 1 ∧
      growth.deliveries earlyState ⟨2, (), 0⟩ = 0 ∧
      growth.retained earlyState ⟨2, (), 0⟩ = 0 ∧
      (earlyState.links 1 0).filterMap NetworkMessage.record? =
        [⟨2, (), 0⟩] ∧
      1 ∉ (earlyState.workers 0).distributor.remotes) := by
  have lost : Reaches (fun state event => System.step countJob state event)
      removal.Permits
      (removal.begin countJob (System.initial countJob removal.old))
      lossState := by
    unfold lossState
    exact Follows.reaches lossTrace .refl (by decide +kernel)
  have early : Reaches (fun state event => System.step countJob state event)
      growth.Permits
      (growth.begin countJob (System.initial countJob growth.old))
      earlyState := by
    unfold earlyState
    exact Follows.reaches earlyTrace .refl (by decide +kernel)
  exact ⟨⟨lost, by decide +kernel, by decide +kernel, by decide +kernel,
      by decide +kernel, by decide +kernel⟩,
    early, by decide +kernel, by decide +kernel, by decide +kernel,
    by decide +kernel, by decide +kernel⟩

/-- Worker 1 leaves.  It has sent everything back when worker 0 hears that it has
announced. -/
def drainedTrace : List (Event Nat Unit Nat) :=
  [.receiveLocal 0 (.data ⟨3, (), 0⟩), .receiveRemote 1 0, .operator 1,
    .sink 1, .receiveLocal 0 (.rescale removal.message), .operator 0, .sink 0,
    .lifecycle 0, .lifecycle 0, .receiveLocal 1 (.rescale removal.message),
    .operator 1, .sink 1, .lifecycle 1, .receiveLocal 0 (.data ⟨5, (), 1⟩),
    .receiveRemote 1 0, .receiveRemote 1 0, .lifecycle 1, .operator 1, .sink 1,
    .lifecycle 1, .receiveRemote 0 1, .receiveRemote 0 1, .receiveRemote 0 1,
    .receiveRemote 0 1, .lifecycle 0, .receiveRemote 1 0, .lifecycle 1,
    .receiveLocal 0 (.data ⟨7, (), 2⟩)]

@[irreducible] def drainedState : System Nat Unit Nat Nat Nat Unit :=
  replay (fun state event => System.step countJob state event)
    (removal.begin countJob (System.initial countJob removal.old)) drainedTrace

theorem removal_conserves_records :
    (removal.entries drainedState ⟨5, (), 1⟩ = 1 ∧
      (drainedState.workers 0).deliveries ⟨5, (), 1⟩ = 1 ∧
      1 ∉ (drainedState.workers 0).distributor.remotes) ∧
    (∀ record, removal.entries drainedState record +
        removal.copies (System.initial countJob removal.old) record =
      removal.deliveries drainedState record +
        removal.retained drainedState record +
        removal.copies drainedState record) ∧
    (∀ source ∈ removal.participants, ∀ target ∈ removal.participants,
      source ≠ target → ∀ message ∈ drainedState.links source target,
        message.record? ≠ none →
          source ∈ (drainedState.workers target).distributor.remotes) ∧
    ∀ source ∈ removal.participants, ∀ target ∈ removal.participants,
      removal.Upgraded (drainedState.workers target) → source ∉ removal.new →
        ∀ message ∈ drainedState.links source target,
          message.record? = none := by
  have run : Reaches (fun state event => System.step countJob state event)
      (fun system event => removal.Permits system event ∧
        removal.Drains countJob system event)
      (removal.begin countJob (System.initial countJob removal.old))
      drainedState := by
    unfold drainedState
    exact Follows.reaches drainedTrace .refl (by decide +kernel)
  refine ⟨⟨by decide +kernel, by decide +kernel, by decide +kernel⟩, ?_⟩
  exact records_conserved (fun key _ nonempty => indexSelect_mem key nonempty)
    (.start trivial) ⟨rfl, rfl, by simp⟩ (by decide)
    (fun _ _ _ _ _ _ linked => by cases linked) run

end Malstrom.Keyed
