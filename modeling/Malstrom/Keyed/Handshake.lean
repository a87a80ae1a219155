import Malstrom.Keyed.Rescale

namespace Malstrom.Keyed

open Data Operators

variable {K V T VO S L : Type}

/-! A worker announces the new version with an `Upgrade` once it has nothing
left to collect, and every remote acknowledges it.  What a link carries is
judged by what its receiver will know of this handshake when it reads it. -/

/-! ### What a worker knows of a remote -/

structure Knowledge where
  lastVersion : Option Version
  lastAck : Option Version

def Remotes.knowledge (remotes : Remotes T) (worker : WorkerId) : Knowledge :=
  ⟨remotes.lastVersion worker, remotes.lastAck worker⟩

def Knowledge.learn (knowledge : Knowledge) :
    NetworkMessage K V T → Knowledge
  | .upgrade version => { knowledge with lastVersion := some version }
  | .ackUpgrade version => { knowledge with lastAck := some version }
  | _ => knowledge

/-- What is known of `other` once a message has been taken. -/
def Knowledge.told (knowledge : Knowledge) (other : WorkerId) :
    Option (WorkerId × NetworkMessage K V T) → Knowledge
  | some (remote, message) =>
      if remote = other then knowledge.learn message else knowledge
  | none => knowledge

theorem Knowledge.told_silent {knowledge : Knowledge} {other : WorkerId}
    {incoming : Option (WorkerId × NetworkMessage K V T)}
    (silent : ∀ arrived, incoming = some arrived →
      knowledge.learn arrived.2 = knowledge) :
    knowledge.told other incoming = knowledge := by
  cases incoming with
  | none => rfl
  | some arrived => simp [Knowledge.told, silent arrived rfl]

theorem Knowledge.told_other {knowledge : Knowledge} {other : WorkerId}
    {incoming : Option (WorkerId × NetworkMessage K V T)}
    (elsewhere : incoming.map Prod.fst ≠ some other) :
    knowledge.told other incoming = knowledge := by
  cases incoming with
  | none => rfl
  | some arrived =>
      have different : arrived.1 ≠ other := by simpa using elsewhere
      simp [Knowledge.told, different]

theorem Knowledge.learn_quiet (knowledge : Knowledge)
    {message : NetworkMessage K V T} (quiet : message.isQuiet = true) :
    knowledge.learn message = knowledge := by
  cases message <;> first | rfl | simp [NetworkMessage.isQuiet] at quiet

theorem Remotes.Agree.knowledge {left right : Remotes T}
    (agree : Remotes.Agree left right) (worker : WorkerId) :
    left.knowledge worker = right.knowledge worker := by
  simp [Remotes.knowledge, agree.lastVersion worker, agree.lastAck worker]

theorem knowledge_modify (remotes : Remotes T) (remote worker : WorkerId)
    (change : RemoteState T → RemoteState T)
    (different : worker ≠ remote) :
    (Remotes.knowledge (remotes.modify remote change) worker) =
      remotes.knowledge worker := by
  simp [Remotes.knowledge, Remotes.lastVersion, Remotes.lastAck,
    IndexMap.get?_modify_of_ne _ change different]

theorem knowledge_addRemotes (remotes : Remotes T) (workers : List WorkerId)
    (thisWorker worker : WorkerId) :
    Remotes.knowledge (Distributor.addRemotes remotes workers thisWorker)
      worker = remotes.knowledge worker := by
  induction workers generalizing remotes with
  | nil => rfl
  | cons head tail ih =>
      have step : Distributor.addRemotes remotes (head :: tail) thisWorker =
          Distributor.addRemotes
            (if head ∉ remotes ∧ head ≠ thisWorker then remotes.insert head {}
              else remotes) tail thisWorker := rfl
      rw [step, ih]
      split
      next added =>
        by_cases same : worker = head
        · subst same
          have absent := IndexMap.get?_eq_none.mpr added.1
          simp [Remotes.knowledge, Remotes.lastVersion, Remotes.lastAck,
            IndexMap.get?_insert_self, absent]
        · simp [Remotes.knowledge, Remotes.lastVersion, Remotes.lastAck,
            IndexMap.get?_insert_of_ne _ _ same]
      next => rfl

theorem knowledge_swapRemoveAll (remotes : Remotes T)
    (removed : List WorkerId) {worker : WorkerId} (kept : worker ∉ removed) :
    Remotes.knowledge (remotes.swapRemoveAll removed) worker =
      remotes.knowledge worker := by
  simp [Remotes.knowledge, Remotes.lastVersion, Remotes.lastAck,
    IndexMap.get?_swapRemoveAll, kept]

def Worker.knowledge (current : Worker K V T VO S L) (other : WorkerId) :
    Knowledge :=
  current.distributor.remotes.knowledge other

theorem arrivalOf_learn {thisWorker : WorkerId}
    {incoming : Option (WorkerId × NetworkMessage K V T)}
    {received : List (Message K V T)} {arrival : Arrival K V T}
    (arrives : arrivalOf thisWorker incoming received = some arrival)
    {arrived : WorkerId × NetworkMessage K V T} (found : incoming = some arrived)
    (knowledge : Knowledge) : knowledge.learn arrived.2 = knowledge := by
  subst found
  unfold arrivalOf at arrives
  split at arrives
  next equation =>
    cases equation
    rfl
  next equation => contradiction
  next => contradiction

theorem Released.payload {partitioner : WorkerPartitioner K}
    {remotes : Remotes T} {clones : Nat} {router released : CollectRouter K V T}
    {network : List (WorkerId × NetworkMessage K V T)}
    (release : Released partitioner remotes clones router released network)
    (target : WorkerId) :
    ∀ message ∈ Links.addressedTo target network, message.isPayload = true := by
  intro message member
  rw [Links.mem_addressedTo] at member
  cases release with
  | idle _ => simp at member
  | released _ _ _ =>
      simp only [List.mem_cons, List.mem_map, Prod.mk.injEq] at member
      rcases member with ⟨_, rfl⟩ | ⟨_, _, _, rfl⟩ <;> rfl

section

variable [DecidableEq K] [MaybeTime T] {job : Job K V T VO S L}
  {thisWorker : WorkerId} {current next : Worker K V T VO S L}
  {incoming : Option (WorkerId × NetworkMessage K V T)}
  {received : List (Message K V T)} {operated : Option (Message K V T)}
  {outgoing : List (WorkerId × NetworkMessage K V T)}

theorem Move.sent
    (move : Move job thisWorker current incoming received operated next
      outgoing) :
    next.sent = current.sent ++ outgoing := by
  cases move <;> simp [Worker.after]

theorem Move.handed
    (move : Move job thisWorker current incoming received operated next
      outgoing) :
    ∃ output, next.handed = current.handed ++ output ∧
      ∀ remote acquire, incoming = some (remote, .acquire acquire) →
        .acquire acquire.toAcquire ∈ output := by
  cases move with
  | quiet _ _ _ _ quietIncoming _ =>
      refine ⟨_, rfl, fun remote acquire found => ?_⟩
      have quiet := quietIncoming _ found
      simp [NetworkMessage.isQuiet] at quiet
  | kept arrives _ =>
      exact ⟨_, rfl, fun remote acquire found => by
        simp [found, arrivalOf] at arrives⟩
  | buffered arrives _ =>
      exact ⟨_, rfl, fun remote acquire found => by
        simp [found, arrivalOf] at arrives⟩
  | forwarded arrives _ _ _ =>
      exact ⟨_, rfl, fun remote acquire found => by
        simp [found, arrivalOf] at arrives⟩
  | acquire =>
      refine ⟨_, rfl, fun remote acquire found => ?_⟩
      cases found
      simp
  | upgrade => exact ⟨_, rfl, by simp⟩
  | ackUpgrade => exact ⟨_, rfl, by simp⟩
  | rescale _ => exact ⟨_, rfl, by simp⟩
  | rescaleCopy _ => exact ⟨_, rfl, by simp⟩
  | interrogated _ _ => exact ⟨_, rfl, by simp⟩
  | collectNext _ _ _ => exact ⟨_, rfl, by simp⟩
  | concluded _ _ _ => exact ⟨_, rfl, by simp⟩
  | finished _ _ => exact ⟨_, rfl, by simp⟩
  | scheduled _ => exact ⟨[], by simp, by simp⟩
  | received _ _ _ => exact ⟨[], by simp, by simp⟩
  | sink => exact ⟨[], by simp, by simp⟩

theorem Move.knowledge
    (move : Move job thisWorker current incoming received operated next
      outgoing)
    (clients : ∀ arrived ∈ incoming, arrived.1 ∈ current.distributor.remotes)
    (other : WorkerId)
    (kept : ∀ router, current.distributor.router = .finished router →
      next.distributor.router.isNormal = true →
      other ∈ router.oldWorkerSet → other ∈ router.newWorkerSet) :
    next.knowledge other = (current.knowledge other).told other incoming := by
  cases move with
  | quiet sameRouter agree _ _ quietIncoming _ =>
      rw [Knowledge.told_silent fun arrived found =>
        Knowledge.learn_quiet _ (quietIncoming arrived found)]
      exact agree.knowledge other
  | kept arrives _ =>
      rw [Knowledge.told_silent fun _ found => arrivalOf_learn arrives found _]
      rfl
  | buffered arrives _ =>
      rw [Knowledge.told_silent fun _ found => arrivalOf_learn arrives found _]
      rfl
  | forwarded arrives _ _ _ =>
      rw [Knowledge.told_silent fun _ found => arrivalOf_learn arrives found _]
      rfl
  | acquire =>
      rw [Knowledge.told_silent fun _ found => by cases found; rfl]
      rfl
  | @upgrade remote version =>
      by_cases same : remote = other
      · subst same
        obtain ⟨state, found⟩ :=
          IndexMap.exists_get?_of_mem (clients _ rfl)
        simp [Worker.knowledge, Worker.after, Remotes.knowledge,
          Remotes.lastVersion, Remotes.lastAck, IndexMap.get?_modify_self,
          found, Knowledge.learn, Knowledge.told]
      · simp only [Knowledge.told, same, if_false]
        exact knowledge_modify _ _ _ _ (Ne.symm same)
  | @ackUpgrade remote version =>
      by_cases same : remote = other
      · subst same
        obtain ⟨state, found⟩ :=
          IndexMap.exists_get?_of_mem (clients _ rfl)
        simp [Worker.knowledge, Worker.after, Remotes.knowledge,
          Remotes.lastVersion, Remotes.lastAck, IndexMap.get?_modify_self,
          found, Knowledge.learn, Knowledge.told]
      · simp only [Knowledge.told, same, if_false]
        exact knowledge_modify _ _ _ _ (Ne.symm same)
  | rescale _ => exact knowledge_addRemotes _ _ _ _
  | rescaleCopy _ => exact knowledge_addRemotes _ _ _ _
  | interrogated _ _ => rfl
  | collectNext _ _ _ => rfl
  | concluded _ _ _ => rfl
  | @finished router finished _ =>
      apply knowledge_swapRemoveAll
      rw [← IndexSet.mem_def, IndexSet.mem_difference]
      rintro ⟨old, leaves⟩
      exact leaves (kept router finished rfl old)
  | scheduled _ => rfl
  | received _ _ reports =>
      subst reports
      simp [Worker.knowledge, Distributor.takeReport_remotes, Knowledge.told]
  | sink => rfl

end

/-! ### Announcing the new version -/

namespace Rescale

def Announced (rescale : Rescale) (current : Worker K V T VO S L) : Prop :=
  match (current.distributor.router.phase : Phase K) with
  | .normal _ => rescale.Started current
  | .interrogate _ _ | .collect _ => False
  | .finished _ => True

def Upgraded (rescale : Rescale) (current : Worker K V T VO S L) : Prop :=
  match (current.distributor.router.phase : Phase K) with
  | .normal _ => rescale.Started current
  | .interrogate _ _ | .collect _ | .finished _ => False

instance (rescale : Rescale) (current : Worker K V T VO S L) :
    Decidable (rescale.Upgraded current) :=
  decidable_of_iff (current.distributor.router.isNormal = true ∧
      rescale.Started current) <| by
    cases routerEquation : current.distributor.router <;>
      simp [Upgraded, MessageRouter.isNormal, MessageRouter.phase,
        routerEquation]

section

variable {job : Job K V T VO S L} {rescale : Rescale} {worker : WorkerId}
  {current next : Worker K V T VO S L} {received : List (Message K V T)}

theorem Upgraded.announced (upgraded : rescale.Upgraded current) :
    rescale.Announced current := by
  unfold Upgraded at upgraded
  unfold Announced
  split at upgraded <;> simp_all

theorem Announced.advance (announced : rescale.Announced current)
    (shape : rescale.Shape job.partitioner worker current)
    (advance : Advance job worker current next received)
    (triggers : rescale.Triggers current received) :
    rescale.Announced next := by
  cases advance with
  | same phase _ taken noTrigger =>
      have started : rescale.Started next ↔ rescale.Started current := by
        simp [started_append taken, noTrigger]
      simpa [Announced, phase, started] using announced
  | copy trigger _ busy phase _ _ =>
      unfold Announced at announced ⊢
      rw [phase]
      cases routerEquation : current.distributor.router <;>
        simp_all [MessageRouter.phase, MessageRouter.isNormal]
  | rescale trigger normal receivedEquation waiting _ _ _ =>
      subst receivedEquation
      have unstarted := (triggers trigger (by simp [Message.rescale?])).2
        (by simp [waiting, MessageRouter.isNormal])
      simp [Announced, waiting, MessageRouter.phase, unstarted] at announced
  | interrogated _ _ interrogating _ _ _ =>
      simp [Announced, interrogating] at announced
  | concluded _ collecting _ _ _ => simp [Announced, collecting] at announced
  | finished _ isFinished _ phase _ taken =>
      have started : rescale.Started current := by
        cases shape with
        | waiting before _ _ => simp [before] at isFinished
        | interrogating _ started _ => exact started
        | collecting _ started _ => exact started
        | finished _ started _ => exact started
        | upgraded _ started _ => exact started
      simpa [Announced, phase, started_iff_of_taken taken] using started

theorem Upgraded.advance (upgraded : rescale.Upgraded current)
    (advance : Advance job worker current next received)
    (triggers : rescale.Triggers current received) :
    rescale.Upgraded next := by
  cases advance with
  | same phase _ taken noTrigger =>
      have started : rescale.Started next ↔ rescale.Started current := by
        simp [started_append taken, noTrigger]
      simpa [Upgraded, phase, started] using upgraded
  | copy trigger _ busy phase _ _ =>
      unfold Upgraded at upgraded ⊢
      rw [phase]
      cases routerEquation : current.distributor.router <;>
        simp_all [MessageRouter.phase, MessageRouter.isNormal]
  | rescale trigger normal receivedEquation waiting _ _ _ =>
      subst receivedEquation
      have unstarted := (triggers trigger (by simp [Message.rescale?])).2
        (by simp [waiting, MessageRouter.isNormal])
      simp [Upgraded, waiting, MessageRouter.phase, unstarted] at upgraded
  | interrogated _ _ interrogating _ _ _ =>
      simp [Upgraded, interrogating] at upgraded
  | concluded _ collecting _ _ _ => simp [Upgraded, collecting] at upgraded
  | finished _ isFinished _ _ _ _ => simp [Upgraded, isFinished] at upgraded

theorem Shape.collecting_handover {partitioner : WorkerPartitioner K}
    {router : CollectRouter K V T}
    (shape : rescale.Shape partitioner worker current)
    (collecting : current.distributor.router = .collect router) :
    (⟨router.version, router.oldWorkerSet, router.newWorkerSet,
        router.trigger⟩ : Handover) = rescale.handover worker rescale.version ∧
      ∀ other, other ∈ current.distributor.remotes ↔
        other ∈ rescale.participants ∧ other ≠ worker := by
  have isCollecting : current.distributor.router.phase = .collect
      ⟨router.version, router.oldWorkerSet, router.newWorkerSet,
        router.trigger⟩ := by
    rw [collecting]
    rfl
  cases shape with
  | waiting phase _ _ => simp [phase] at isCollecting
  | interrogating phase _ _ => simp [phase] at isCollecting
  | collecting phase _ clients =>
      exact ⟨(Phase.collect.inj (phase.symm.trans isCollecting)).symm, clients⟩
  | finished phase _ _ => simp [phase] at isCollecting
  | upgraded phase _ _ => simp [phase] at isCollecting

theorem Shape.collecting_clients {partitioner : WorkerPartitioner K}
    {router : CollectRouter K V T}
    (shape : rescale.Shape partitioner worker current)
    (collecting : current.distributor.router = .collect router) :
    router.version = rescale.version ∧
      ∀ other, other ∈ current.distributor.remotes ↔
        other ∈ rescale.participants ∧ other ≠ worker := by
  obtain ⟨fixed, clients⟩ := shape.collecting_handover collecting
  exact ⟨congrArg Handover.version fixed, clients⟩

theorem Shape.collecting_sets {partitioner : WorkerPartitioner K}
    {router : CollectRouter K V T}
    (shape : rescale.Shape partitioner worker current)
    (collecting : current.distributor.router = .collect router) :
    router.oldWorkerSet = rescale.buildSet worker ∧
      router.newWorkerSet = rescale.new :=
  have fixed := (shape.collecting_handover collecting).1
  ⟨congrArg Handover.oldWorkerSet fixed, congrArg Handover.newWorkerSet fixed⟩

theorem Shape.upgraded_clients {partitioner : WorkerPartitioner K}
    (shape : rescale.Shape partitioner worker current)
    (upgraded : rescale.Upgraded current) (other : WorkerId) :
    other ∈ current.distributor.remotes ↔
      other ∈ rescale.new ∧ other ≠ worker := by
  unfold Upgraded at upgraded
  cases shape with
  | waiting phase unstarted _ =>
      rw [phase] at upgraded
      exact absurd upgraded unstarted
  | interrogating phase _ _ => simp [phase] at upgraded
  | collecting phase _ _ => simp [phase] at upgraded
  | finished phase _ _ => simp [phase] at upgraded
  | upgraded _ _ clients => exact clients other

end

section

variable [DecidableEq K] [MaybeTime T] {job : Job K V T VO S L}
  {rescale : Rescale} {system : System K V T VO S L} {event : Event K V T}
  {worker : Worker K V T VO S L}
  {outgoing : List (WorkerId × NetworkMessage K V T)}

theorem Step.announced (step : rescale.Step job system event worker outgoing)
    (announced : rescale.Announced (system.workers event.worker)) :
    rescale.Announced worker :=
  announced.advance step.before step.move.advance step.triggers

theorem Step.upgraded (step : rescale.Step job system event worker outgoing)
    (upgraded : rescale.Upgraded (system.workers event.worker)) :
    rescale.Upgraded worker :=
  upgraded.advance step.move.advance step.triggers

theorem Step.knowledge (step : rescale.Step job system event worker outgoing)
    (other : WorkerId) (kept : rescale.Upgraded worker → other ∈ rescale.new) :
    worker.knowledge other =
      ((system.workers event.worker).knowledge other).told other
        (system.incoming event) := by
  apply step.move.knowledge (fun arrived found => (step.sender arrived found).2)
  intro router finished normal _
  have isFinished : (system.workers event.worker).distributor.router.phase =
      .finished ⟨router.version, router.oldWorkerSet, router.newWorkerSet,
        router.trigger⟩ := by
    rw [finished]
    rfl
  have announced : rescale.Announced worker :=
    step.announced (by simp [Announced, isFinished])
  have upgraded : rescale.Upgraded worker := by
    cases routerEquation : worker.distributor.router <;>
      simp_all [Announced, Upgraded, MessageRouter.phase,
        MessageRouter.isNormal]
  have same : router.newWorkerSet = rescale.new := by
    cases step.before with
    | finished phase _ _ =>
        rw [isFinished] at phase
        exact congrArg Handover.newWorkerSet (Phase.finished.inj phase)
    | waiting phase _ _ => simp [phase] at isFinished
    | interrogating phase _ _ => simp [phase] at isFinished
    | collecting phase _ _ => simp [phase] at isFinished
    | upgraded phase _ _ => simp [phase] at isFinished
  exact same ▸ kept upgraded

end

/-! ### The contents of a link -/

section

variable {rescale : Rescale} {partitioner : WorkerPartitioner K}
  {source target : WorkerId} {knowledge : Knowledge}
  {link more : List (NetworkMessage K V T)}

/-- Once the receiver has the sender's `Upgrade` no state follows; once it
also has the acknowledgement of its own, every record is one it owns. -/
def Proper (rescale : Rescale) (partitioner : WorkerPartitioner K)
    (target : WorkerId) (knowledge : Knowledge) :
    NetworkMessage K V T → Prop
  | .data message =>
      knowledge.lastVersion = some rescale.version →
        knowledge.lastAck = some rescale.version →
          partitioner message.content.key rescale.new = target ∧
            message.version = rescale.version
  | .acquire _ => knowledge.lastVersion ≠ some rescale.version
  | .upgrade version =>
      knowledge.lastVersion = some rescale.version → version = rescale.version
  | .ackUpgrade version =>
      knowledge.lastAck = some rescale.version → version = rescale.version
  | .epoch _ | .barrierMarker | .suspendMarker => True

abbrev LinkProper (rescale : Rescale) (partitioner : WorkerPartitioner K)
    (target : WorkerId) :
    Knowledge → List (NetworkMessage K V T) → Prop :=
  Judged Knowledge.learn (rescale.Proper partitioner target)

theorem learn_quietList (quiet : ∀ message ∈ more, message.isQuiet = true) :
    viewAfter Knowledge.learn knowledge more = knowledge := by
  induction more with
  | nil => rfl
  | cons message rest ih =>
      have first := knowledge.learn_quiet (quiet message (by simp))
      have others := ih fun later member => quiet later (by simp [member])
      simpa [viewAfter, first] using others

theorem linkProper_quiet (quiet : ∀ message ∈ more, message.isQuiet = true) :
    rescale.LinkProper partitioner target knowledge more := by
  induction more with
  | nil => trivial
  | cons message rest ih =>
      have isQuiet := quiet message (by simp)
      refine ⟨?_, ?_⟩
      · cases message <;> trivial
      · rw [Knowledge.learn_quiet _ isQuiet]
        exact ih fun later member => quiet later (by simp [member])

theorem learn_payload (payload : ∀ message ∈ more, message.isPayload = true) :
    viewAfter Knowledge.learn knowledge more = knowledge := by
  induction more with
  | nil => rfl
  | cons message rest ih =>
      have others := ih fun later member => payload later (by simp [member])
      have first := payload message (by simp)
      cases message <;> first
        | simpa [viewAfter, Knowledge.learn] using others
        | simp [NetworkMessage.isPayload] at first

theorem linkProper_payload
    (payload : ∀ message ∈ more, message.isPayload = true)
    (unannounced : knowledge.lastVersion ≠ some rescale.version) :
    rescale.LinkProper partitioner target knowledge more := by
  induction more with
  | nil => trivial
  | cons message rest ih =>
      have others := ih fun later member => payload later (by simp [member])
      have first := payload message (by simp)
      cases message with
      | data _ => exact ⟨fun known => absurd known unannounced, others⟩
      | acquire _ => exact ⟨unannounced, others⟩
      | epoch _ => simp [NetworkMessage.isPayload] at first
      | barrierMarker => simp [NetworkMessage.isPayload] at first
      | suspendMarker => simp [NetworkMessage.isPayload] at first
      | upgrade _ => simp [NetworkMessage.isPayload] at first
      | ackUpgrade _ => simp [NetworkMessage.isPayload] at first

end

/-- What holds between a sender and a receiver, over the link between them. -/
structure Handshake (rescale : Rescale) (partitioner : WorkerPartitioner K)
    (source target : WorkerId) (sender receiver : Worker K V T VO S L)
    (link : List (NetworkMessage K V T)) : Prop where
  announced : (viewAfter Knowledge.learn (receiver.knowledge source)
    link).lastVersion = some rescale.version → rescale.Announced sender
  recorded : (viewAfter Knowledge.learn (receiver.knowledge source)
    link).lastAck = some rescale.version →
      (sender.knowledge target).lastVersion = some rescale.version ∨
        rescale.Upgraded sender ∧ target ∉ rescale.new
  proper : rescale.LinkProper partitioner target (receiver.knowledge source)
    link
  delivered : ∀ acquire, (target, .acquire acquire) ∈ sender.sent →
    .acquire acquire ∈ link ∨ .acquire acquire.toAcquire ∈ receiver.handed
  ordered : ∃ earlier, .upgrade rescale.version ∉ earlier ∧
    link <:+ earlier ++ Links.addressedTo target sender.sent
  behind : (receiver.knowledge source).lastVersion = some rescale.version →
    ∃ earlier later, Links.addressedTo target sender.sent =
      earlier ++ .upgrade rescale.version :: later ∧ link <:+ later

namespace Handshake

variable {rescale : Rescale} {partitioner : WorkerPartitioner K}
  {source target : WorkerId} {sender sender' receiver receiver' :
    Worker K V T VO S L} {link : List (NetworkMessage K V T)}

theorem send {outgoing : List (WorkerId × NetworkMessage K V T)}
    (handshake : Handshake rescale partitioner source target sender receiver
      link)
    (sent : sender'.sent = sender.sent ++ outgoing)
    (announced : (viewAfter Knowledge.learn (receiver.knowledge source)
      (link ++ Links.addressedTo target outgoing)).lastVersion =
        some rescale.version → rescale.Announced sender')
    (recorded : (viewAfter Knowledge.learn (receiver.knowledge source)
      (link ++ Links.addressedTo target outgoing)).lastAck =
        some rescale.version →
      (sender'.knowledge target).lastVersion = some rescale.version ∨
        rescale.Upgraded sender' ∧ target ∉ rescale.new)
    (proper : rescale.LinkProper partitioner target
      (viewAfter Knowledge.learn (receiver.knowledge source) link)
      (Links.addressedTo target outgoing)) :
    Handshake rescale partitioner source target sender' receiver
      (link ++ Links.addressedTo target outgoing) where
  announced := announced
  recorded := recorded
  proper := judged_append.mpr ⟨handshake.proper, proper⟩
  delivered acquire member := by
    rw [sent, List.mem_append] at member
    rcases member with before | now
    · rcases handshake.delivered acquire before with linked | handed
      · exact .inl (List.mem_append_left _ linked)
      · exact .inr handed
    · exact .inl (List.mem_append_right _ (Links.mem_addressedTo.mpr now))
  ordered := by
    obtain ⟨earlier, absent, suffix⟩ := handshake.ordered
    refine ⟨earlier, absent, ?_⟩
    rw [sent, Links.addressedTo_append, ← List.append_assoc]
    exact (List.suffix_append_inj_of_length_eq rfl).mpr ⟨suffix, rfl⟩
  behind known := by
    obtain ⟨earlier, later, split, suffix⟩ := handshake.behind known
    refine ⟨earlier, later ++ Links.addressedTo target outgoing, ?_, ?_⟩
    · rw [sent, Links.addressedTo_append, split]
      simp
    · exact (List.suffix_append_inj_of_length_eq rfl).mpr ⟨suffix, rfl⟩

theorem keep
    (handshake : Handshake rescale partitioner source target sender receiver
      link)
    (knowledge : receiver'.knowledge source = receiver.knowledge source)
    (handed : ∀ message ∈ receiver.handed, message ∈ receiver'.handed) :
    Handshake rescale partitioner source target sender receiver' link where
  announced := knowledge ▸ handshake.announced
  recorded := knowledge ▸ handshake.recorded
  proper := knowledge ▸ handshake.proper
  delivered acquire member :=
    (handshake.delivered acquire member).imp_right (handed _)
  ordered := handshake.ordered
  behind := knowledge ▸ handshake.behind

theorem take {message : NetworkMessage K V T}
    (handshake : Handshake rescale partitioner source target sender receiver
      (message :: link))
    (knowledge : receiver'.knowledge source =
      (receiver.knowledge source).learn message)
    (handed : ∀ message ∈ receiver.handed, message ∈ receiver'.handed)
    (acquired : ∀ acquire, message = .acquire acquire →
      .acquire acquire.toAcquire ∈ receiver'.handed) :
    Handshake rescale partitioner source target sender receiver' link where
  announced := knowledge ▸ handshake.announced
  recorded := knowledge ▸ handshake.recorded
  proper := knowledge ▸ handshake.proper.2
  delivered acquire member := by
    rcases handshake.delivered acquire member with linked | before
    · rcases List.mem_cons.mp linked with first | rest
      · exact .inr (acquired acquire first.symm)
      · exact .inl rest
    · exact .inr (handed _ before)
  ordered := by
    obtain ⟨earlier, absent, suffix⟩ := handshake.ordered
    exact ⟨earlier, absent, (List.suffix_cons message link).trans suffix⟩
  behind known := by
    rw [knowledge] at known
    cases before : decide ((receiver.knowledge source).lastVersion =
        some rescale.version) with
    | true =>
        obtain ⟨earlier, later, split, suffix⟩ :=
          handshake.behind (of_decide_eq_true before)
        exact ⟨earlier, later, split, (List.suffix_cons _ _).trans suffix⟩
    | false =>
        have unknown := of_decide_eq_false before
        obtain ⟨earlier, absent, prior, split⟩ := handshake.ordered
        cases message with
        | upgrade version =>
            simp only [Knowledge.learn, Option.some.injEq] at known
            subst known
            -- the `Upgrade` was not there at the start, so it has been sent
            rcases List.append_eq_append_iff.mp split with
              ⟨extra, earlierEquation, rest⟩ | ⟨extra, priorEquation, rest⟩
            · cases extra with
              | nil =>
                  exact ⟨[], link, rest.symm, List.suffix_refl _⟩
              | cons first others =>
                  simp only [List.cons_append, List.cons.injEq] at rest
                  exact absurd (by simp [earlierEquation, rest.1]) absent
            · exact ⟨extra, link, rest, List.suffix_refl _⟩
        | data _ => exact absurd known unknown
        | acquire _ => exact absurd known unknown
        | ackUpgrade _ => exact absurd known unknown
        | epoch _ => exact absurd known unknown
        | barrierMarker => exact absurd known unknown
        | suspendMarker => exact absurd known unknown

end Handshake

/-! ### Every step keeps the handshake -/

theorem unannounced_of_collecting {rescale : Rescale}
    {current : Worker K V T VO S L} {router : CollectRouter K V T}
    (collecting : current.distributor.router = .collect router) :
    ¬rescale.Announced current := by
  simp [Announced, collecting, MessageRouter.phase]

section

/-- Where an announced worker forwards a record to: its owner, or, where it owns
the record itself, an old owner which has not announced the new version to us. -/
theorem Shape.forwarded [DecidableEq K] {job : Job K V T VO S L}
    {rescale : Rescale} {current : Worker K V T VO S L}
    {thisWorker target : WorkerId} {arrival : Arrival K V T}
    {router : MessageRouter K V T}
    (shape : rescale.Shape job.partitioner thisWorker current)
    (announced : rescale.Announced current)
    (routed : Routed job.partitioner thisWorker current.distributor.remotes
      arrival current.distributor.router router (some target))
    (other : target ≠ thisWorker) :
    router.version = rescale.version ∧
      (job.partitioner arrival.message.key rescale.new = target ∨
        job.partitioner arrival.message.key rescale.new = thisWorker ∧
          (current.knowledge target).lastVersion ≠ some rescale.version ∧
          ¬rescale.Upgraded current) := by
  have course := shape.course routed
  generalize targetEquation : some target = destination at course
  unfold Announced at announced
  cases course with
  | ahead _ _ => exact absurd (Option.some.inj targetEquation) other
  | waiting phase unstarted =>
      rw [phase] at announced
      exact absurd announced unstarted
  | listed interrogating _ _ _ =>
      simp [interrogating, MessageRouter.phase] at announced
  | interrogating interrogating _ _ =>
      simp [interrogating, MessageRouter.phase] at announced
  | uncollected collecting _ _ _ =>
      simp [collecting, MessageRouter.phase] at announced
  | buffered collecting _ _ _ _ =>
      simp [collecting, MessageRouter.phase] at announced
  | collected collecting _ _ _ _ =>
      simp [collecting, MessageRouter.phase] at announced
  | collectOwned collecting _ _ _ =>
      simp [collecting, MessageRouter.phase] at announced
  | collectOld collecting _ _ _ =>
      simp [collecting, MessageRouter.phase] at announced
  | finishedAway finished version _ =>
      refine ⟨?_, .inl (Option.some.inj targetEquation).symm⟩
      rw [finished]
      exact version
  | finishedOwned _ _ _ _ => exact absurd (Option.some.inj targetEquation) other
  | finishedOld finished version newHere _ _ holding =>
      refine ⟨by rw [finished]; exact version, .inr ⟨newHere, ?_, ?_⟩⟩
      · rw [Option.some.inj targetEquation]
        exact holding
      · simp [Upgraded, finished, MessageRouter.phase]
  | upgraded phase _ =>
      refine ⟨by rw [phase]; rfl, .inl (Option.some.inj targetEquation).symm⟩

variable [DecidableEq K] [MaybeTime T] {job : Job K V T VO S L}
  {rescale : Rescale} {system : System K V T VO S L} {event : Event K V T}
  {worker : Worker K V T VO S L}
  {outgoing : List (WorkerId × NetworkMessage K V T)}

theorem Step.recorded (step : rescale.Step job system event worker outgoing)
    {target : WorkerId}
    (silent : ∀ message, system.incoming event = some (target, message) →
      ∀ knowledge : Knowledge,
        (knowledge.learn message).lastVersion = knowledge.lastVersion)
    (recorded : ((system.workers event.worker).knowledge target).lastVersion =
        some rescale.version ∨
      rescale.Upgraded (system.workers event.worker) ∧ target ∉ rescale.new) :
    (worker.knowledge target).lastVersion = some rescale.version ∨
      rescale.Upgraded worker ∧ target ∉ rescale.new := by
  rcases recorded with known | ⟨upgraded, leaves⟩
  · by_cases dropped : rescale.Upgraded worker ∧ target ∉ rescale.new
    · exact .inr dropped
    · left
      have kept : rescale.Upgraded worker → target ∈ rescale.new :=
        fun upgraded => not_not.mp fun leaves => dropped ⟨upgraded, leaves⟩
      rw [step.knowledge target kept]
      cases incomingEquation : system.incoming event with
      | none => exact known
      | some arrived =>
          by_cases same : arrived.1 = target
          · subst same
            simp [Knowledge.told, silent arrived.2 incomingEquation, known]
          · simp [Knowledge.told, same, known]
  · exact .inr ⟨step.upgraded upgraded, leaves⟩

section

variable {target : WorkerId} {receiver : Worker K V T VO S L}
  {link : List (NetworkMessage K V T)}

/-- What is sent tells the receiver nothing new about the sender. -/
theorem Step.send_plain (step : rescale.Step job system event worker outgoing)
    (handshake : Handshake rescale job.partitioner event.worker target
      (system.workers event.worker) receiver link)
    (same : ∀ knowledge : Knowledge, viewAfter Knowledge.learn knowledge
      (Links.addressedTo target outgoing) = knowledge)
    (silent : ∀ message, system.incoming event = some (target, message) →
      ∀ knowledge : Knowledge,
        (knowledge.learn message).lastVersion = knowledge.lastVersion)
    (proper : rescale.LinkProper job.partitioner target
      (viewAfter Knowledge.learn (receiver.knowledge event.worker) link)
      (Links.addressedTo target outgoing)) :
    Handshake rescale job.partitioner event.worker target worker receiver
      (link ++ Links.addressedTo target outgoing) := by
  refine handshake.send step.move.sent ?_ ?_ proper
  · rw [viewAfter_append, same]
    exact fun known => step.announced (handshake.announced known)
  · rw [viewAfter_append, same]
    exact fun known => step.recorded silent (handshake.recorded known)

theorem Step.send_nothing (step : rescale.Step job system event worker outgoing)
    (handshake : Handshake rescale job.partitioner event.worker target
      (system.workers event.worker) receiver link)
    (none' : Links.addressedTo target outgoing = [])
    (silent : ∀ message, system.incoming event = some (target, message) →
      ∀ knowledge : Knowledge,
        (knowledge.learn message).lastVersion = knowledge.lastVersion) :
    Handshake rescale job.partitioner event.worker target worker receiver
      (link ++ Links.addressedTo target outgoing) :=
  step.send_plain handshake (fun _ => by rw [none']; rfl) silent
    (by rw [none']; trivial)

/-- A record is sent to its owner once the receiver has announced. -/
theorem Step.send_record (step : rescale.Step job system event worker outgoing)
    (handshake : Handshake rescale job.partitioner event.worker target
      (system.workers event.worker) receiver link)
    {record : NetworkDataMessage K V T}
    (addressed : Links.addressedTo target outgoing = [.data record])
    (silent : ∀ message, system.incoming event = some (target, message) →
      ∀ knowledge : Knowledge,
        (knowledge.learn message).lastVersion = knowledge.lastVersion)
    (forwarded : rescale.Announced (system.workers event.worker) →
      record.version = rescale.version ∧
        (job.partitioner record.content.key rescale.new = target ∨
          job.partitioner record.content.key rescale.new = event.worker ∧
            ((system.workers event.worker).knowledge target).lastVersion ≠
              some rescale.version ∧
            ¬rescale.Upgraded (system.workers event.worker))) :
    Handshake rescale job.partitioner event.worker target worker receiver
      (link ++ Links.addressedTo target outgoing) := by
  refine step.send_plain handshake (fun _ => by rw [addressed]; rfl) silent ?_
  rw [addressed]
  refine ⟨fun known acknowledged => ?_, trivial⟩
  obtain ⟨version, owner⟩ := forwarded (handshake.announced known)
  refine ⟨?_, version⟩
  rcases owner with here | ⟨-, unknown, working⟩
  · exact here
  · rcases handshake.recorded acknowledged with recorded | upgraded
    · exact absurd recorded unknown
    · exact absurd upgraded.1 working

/-- The acknowledgement which is given is of the version which is recorded. -/
theorem Step.send_acknowledgement
    (step : rescale.Step job system event worker outgoing)
    (handshake : Handshake rescale job.partitioner event.worker target
      (system.workers event.worker) receiver link) {version : Version}
    (incoming : system.incoming event = some (target, .upgrade version))
    (addressed : Links.addressedTo target outgoing = [.ackUpgrade version])
    (client : target ∈ worker.distributor.remotes)
    (reverse : rescale.Proper job.partitioner event.worker
      ((system.workers event.worker).knowledge target)
        (.upgrade version : NetworkMessage K V T)) :
    Handshake rescale job.partitioner event.worker target worker receiver
      (link ++ Links.addressedTo target outgoing) := by
  have learned := step.knowledge target fun upgraded =>
    ((step.after.upgraded_clients upgraded target).mp client).1
  rw [incoming] at learned
  refine handshake.send step.move.sent ?_ ?_ ?_
  · rw [addressed, viewAfter_append]
    exact fun known => step.announced (handshake.announced known)
  · rw [addressed, viewAfter_append]
    intro acknowledged
    left
    rw [learned]
    simpa [Knowledge.told, Knowledge.learn, viewAfter] using acknowledged
  · rw [addressed]
    refine ⟨fun acknowledged => ?_, trivial⟩
    rcases handshake.recorded acknowledged with known | ⟨upgraded, leaves⟩
    · exact reverse known
    · have before := (step.sender _ incoming).2
      exact absurd
        ((step.before.upgraded_clients upgraded target).mp before).1 leaves

/-- A worker announces behind the last it had to send. -/
theorem Step.send_upgrade (step : rescale.Step job system event worker outgoing)
    (handshake : Handshake rescale job.partitioner event.worker target
      (system.workers event.worker) receiver link)
    {before : List (NetworkMessage K V T)}
    (incoming : system.incoming event = none)
    (addressed : Links.addressedTo target outgoing =
      before ++ [.upgrade rescale.version])
    (payload : ∀ message ∈ before, message.isPayload = true)
    (unannounced : ¬rescale.Announced (system.workers event.worker))
    (announced : rescale.Announced worker) :
    Handshake rescale job.partitioner event.worker target worker receiver
      (link ++ Links.addressedTo target outgoing) := by
  refine handshake.send step.move.sent (fun _ => announced) ?_ ?_
  · rw [addressed, viewAfter_append, viewAfter_append, learn_payload payload]
    exact fun acknowledged => step.recorded (by simp [incoming])
      (handshake.recorded acknowledged)
  · rw [addressed]
    refine judged_append.mpr ⟨linkProper_payload payload fun known =>
      unannounced (handshake.announced known), fun _ => rfl, trivial⟩

end

theorem Step.send_handshake (step : rescale.Step job system event worker outgoing)
    {target : WorkerId} {receiver : Worker K V T VO S L}
    {link : List (NetworkMessage K V T)} (other : target ≠ event.worker)
    (participant : target ∈ rescale.participants)
    (handshake : Handshake rescale job.partitioner event.worker target
      (system.workers event.worker) receiver link)
    (reverse : ∀ message, system.incoming event = some (target, message) →
      rescale.Proper job.partitioner event.worker
        ((system.workers event.worker).knowledge target) message) :
    Handshake rescale job.partitioner event.worker target worker receiver
      (link ++ Links.addressedTo target outgoing) := by
  have nothing (none' : Links.addressedTo target outgoing = [])
      (silent : ∀ message, system.incoming event = some (target, message) →
        ∀ knowledge : Knowledge,
          (knowledge.learn message).lastVersion = knowledge.lastVersion) :=
    step.send_nothing handshake none' silent
  have fromArrival {arrival : Arrival K V T}
      (arrives : arrivalOf event.worker (system.incoming event)
        (system.received event) = some arrival) (message : NetworkMessage K V T)
      (found : system.incoming event = some (target, message))
      (knowledge : Knowledge) :
      (knowledge.learn message).lastVersion = knowledge.lastVersion := by
    rw [arrivalOf_learn arrives found]
  have move := step.move
  generalize incomingEquation : system.incoming event = incoming at *
  generalize receivedEquation : system.received event = received at *
  generalize system.operated event = operated at *
  cases move with
  | @quiet _ _ _ effects _ _ _ quietNetwork quietIncoming _ =>
      have quiet : ∀ message ∈ Links.addressedTo target effects.network,
          message.isQuiet = true := fun message member =>
        quietNetwork _ (Links.mem_addressedTo.mp member)
      refine step.send_plain handshake (fun _ => learn_quietList quiet) ?_
        (linkProper_quiet quiet)
      intro message found knowledge
      rw [incomingEquation] at found
      rw [Knowledge.learn_quiet _ (quietIncoming _ found)]
  | kept arrives _ => exact nothing rfl (fromArrival arrives)
  | buffered arrives _ => exact nothing rfl (fromArrival arrives)
  | @forwarded _ _ arrival router target' arrives routed away _ =>
      by_cases same : target' = target
      · subst same
        have addressed : Links.addressedTo target'
            [(target', NetworkMessage.data (T := T)
              ⟨arrival.message, router.version⟩)] =
                [.data ⟨arrival.message, router.version⟩] := by
          simp [Links.addressedTo_cons]
        exact step.send_record handshake addressed
          (incomingEquation ▸ fromArrival arrives)
          fun announced => step.before.forwarded announced routed away
      · exact nothing (by simp [Links.addressedTo_cons, same])
          (fromArrival arrives)
  | acquire =>
      exact nothing rfl fun message found _ => by
        cases found
        rfl
  | @upgrade remote version =>
      by_cases same : remote = target
      · subst same
        have client := (step.sender _ incomingEquation).2
        exact step.send_acknowledgement handshake incomingEquation
          (by simp [Links.addressedTo_cons]) (IndexMap.mem_modify.mpr client)
          (reverse _ rfl)
      · refine nothing (by simp [Links.addressedTo_cons, same]) ?_
        intro message found
        cases found
        exact absurd rfl same
  | ackUpgrade =>
      exact nothing rfl fun message found _ => by
        cases found
        rfl
  | collectNext collecting release _ =>
      have payload := release.payload target
      refine step.send_plain handshake (fun _ => learn_payload payload)
        (by simp [incomingEquation]) (linkProper_payload payload ?_)
      exact fun known => unannounced_of_collecting collecting
        (handshake.announced known)
  | @concluded router released network collecting release _ =>
      obtain ⟨version, clients⟩ := step.before.collecting_clients collecting
      refine step.send_upgrade handshake incomingEquation ?_
        (release.payload target) (unannounced_of_collecting collecting) ?_
      · rw [Links.addressedTo_append, addressedTo_broadcast,
          if_pos ((clients target).mpr ⟨participant, other⟩), version]
      · simp [Announced, Worker.after, MessageRouter.phase]
  | rescale | rescaleCopy | interrogated | finished | scheduled | received
  | sink => exact nothing rfl (by simp)

/-- The handshake of every two participants.  What a worker which is back to
normal knows of a leaving one is gone with its client. -/
def Shaken (rescale : Rescale) (job : Job K V T VO S L)
    (system : System K V T VO S L) : Prop :=
  ∀ source target, source ≠ target → source ∈ rescale.participants →
    target ∈ rescale.participants →
    (rescale.Upgraded (system.workers target) → source ∈ rescale.new) →
    Handshake rescale job.partitioner source target (system.workers source)
      (system.workers target) (system.links source target)

theorem Step.shaken (shaken : rescale.Shaken job system)
    (step : rescale.Step job system event worker outgoing) :
    rescale.Shaken job (system.moved event.worker (system.incoming event)
      worker outgoing) := by
  obtain ⟨output, handed, acquired⟩ := step.move.handed
  have stillHanded : ∀ message ∈ (system.workers event.worker).handed,
      message ∈ worker.handed := fun message member => by
    rw [handed]
    exact List.mem_append_left _ member
  apply System.moved_pairwise (fun source target sender receiver link =>
    source ∈ rescale.participants → target ∈ rescale.participants →
    (rescale.Upgraded receiver → source ∈ rescale.new) →
    Handshake rescale job.partitioner source target sender receiver link)
  · exact shaken
  · exact step.head
  · intro target other before source participant kept
    refine step.send_handshake other participant
      (before source participant kept) ?_
    intro message found
    have arrived := step.head _ found
    have pair := shaken target event.worker other participant source
      fun upgraded => ((step.before.upgraded_clients upgraded target).mp
        (step.sender _ found).2).1
    cases linkEquation : system.links target event.worker with
    | nil => simp [linkEquation] at arrived
    | cons first rest =>
        simp only [linkEquation, List.head?_cons, Option.some.injEq]
          at arrived
        have proper := pair.proper
        rw [linkEquation] at proper
        exact arrived.2 ▸ proper.1
  · intro source other elsewhere before participant target kept
    refine (before participant target fun upgraded =>
      kept (step.upgraded upgraded)).keep ?_ stillHanded
    rw [step.knowledge source kept, Knowledge.told_other elsewhere]
  · intro source message rest other found before participant target kept
    refine (before participant target fun upgraded =>
      kept (step.upgraded upgraded)).take ?_ stillHanded ?_
    · rw [step.knowledge source kept, found]
      simp [Knowledge.told]
    · intro acquire same
      rw [handed]
      exact List.mem_append_right _ (acquired source acquire (same ▸ found))

end

end Rescale

end Malstrom.Keyed
