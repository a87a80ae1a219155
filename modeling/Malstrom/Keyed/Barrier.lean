import Malstrom.Keyed.Partitioners
import Malstrom.Keyed.Settled

namespace Malstrom.Keyed

open Data Operators

variable {K V T VO S L : Type}

/-! The way back from `finished` to `normal` is a barrier for the handover. -/

namespace Rescale

/-- All of the handover is over for a worker: every other participant has
given up what it has to give up, every state meant for this worker has been
handed downstream, and what is still on its way was sent after the sender's
`Upgrade` to the owner of the key. -/
structure HandedOver (rescale : Rescale) (job : Job K V T VO S L)
    (worker : WorkerId) (system : System K V T VO S L) : Prop where
  announced : ∀ other ∈ rescale.participants, other ≠ worker →
    (∃ router, (system.workers other).distributor.router = .finished router ∧
      router.version = rescale.version) ∨
    (system.workers other).distributor.router =
      .normal ⟨rescale.new, rescale.version⟩
  acquired : ∀ other ∈ rescale.participants, other ≠ worker → ∀ acquire,
    (worker, .acquire acquire) ∈ (system.workers other).sent →
      .acquire acquire.toAcquire ∈ (system.workers worker).handed
  owned : ∀ other ∈ rescale.participants, other ≠ worker → ∀ message,
    .data message ∈ system.links other worker →
      job.partitioner message.content.key rescale.new = worker ∧
        message.version = rescale.version
  behind : ∀ other ∈ rescale.participants, other ≠ worker →
    ∃ earlier later,
      Links.addressedTo worker (system.workers other).sent =
        earlier ++ .upgrade rescale.version :: later ∧
      system.links other worker <:+ later

theorem LinkProper.heard {rescale : Rescale}
    {partitioner : WorkerPartitioner K} {target : WorkerId}
    {knowledge : Knowledge} {link : List (NetworkMessage K V T)}
    (proper : rescale.LinkProper partitioner target knowledge link)
    (version : knowledge.lastVersion = some rescale.version) :
    (viewAfter Knowledge.learn knowledge link).lastVersion =
      some rescale.version := by
  induction link generalizing knowledge with
  | nil => exact version
  | cons message rest ih =>
      refine ih proper.2 ?_
      cases message with
      | upgrade other => exact congrArg some (proper.1 version)
      | _ => exact version

/-- Once both directions of the handshake are recorded every record is one the
receiver owns. -/
theorem LinkProper.owned {rescale : Rescale} {partitioner : WorkerPartitioner K}
    {target : WorkerId} {knowledge : Knowledge}
    {link : List (NetworkMessage K V T)}
    (proper : rescale.LinkProper partitioner target knowledge link)
    (version : knowledge.lastVersion = some rescale.version)
    (ack : knowledge.lastAck = some rescale.version) :
    ∀ message, .data message ∈ link →
      partitioner message.content.key rescale.new = target ∧
        message.version = rescale.version := by
  induction link generalizing knowledge with
  | nil => simp
  | cons message rest ih =>
      have learned : (knowledge.learn message).lastVersion =
            some rescale.version ∧
          (knowledge.learn message).lastAck = some rescale.version := by
        cases message with
        | upgrade other => exact ⟨congrArg some (proper.1 version), ack⟩
        | ackUpgrade other => exact ⟨version, congrArg some (proper.1 ack)⟩
        | data _ => exact ⟨version, ack⟩
        | acquire _ => exact ⟨version, ack⟩
        | epoch _ => exact ⟨version, ack⟩
        | barrierMarker => exact ⟨version, ack⟩
        | suspendMarker => exact ⟨version, ack⟩
      intro record member
      rcases List.mem_cons.mp member with first | later
      · subst first
        exact proper.1 version ack
      · exact ih proper.2 learned.1 learned.2 record later

/-- Past the sender's `Upgrade` a link carries no state. -/
theorem LinkProper.noAcquire {rescale : Rescale}
    {partitioner : WorkerPartitioner K} {target : WorkerId}
    {knowledge : Knowledge} {link : List (NetworkMessage K V T)}
    (proper : rescale.LinkProper partitioner target knowledge link)
    (version : knowledge.lastVersion = some rescale.version)
    (acquire : NetworkAcquire K) : .acquire acquire ∉ link := by
  induction link generalizing knowledge with
  | nil => simp
  | cons message rest ih =>
      have learned : (knowledge.learn message).lastVersion =
          some rescale.version := by
        cases message with
        | upgrade other => exact congrArg some (proper.1 version)
        | _ => exact version
      rw [List.mem_cons, not_or]
      refine ⟨fun first => ?_, ih proper.2 learned⟩
      subst first
      exact proper.1 version

theorem Shape.announced {rescale : Rescale} {partitioner : WorkerPartitioner K}
    {worker : WorkerId} {current : Worker K V T VO S L}
    (shape : rescale.Shape partitioner worker current)
    (announced : rescale.Announced current) :
    (∃ router, current.distributor.router = .finished router ∧
      router.version = rescale.version) ∨
    current.distributor.router = .normal ⟨rescale.new, rescale.version⟩ := by
  unfold Announced at announced
  cases shape with
  | waiting phase unstarted _ =>
      rw [phase] at announced
      exact absurd announced unstarted
  | interrogating phase _ _ => simp [phase] at announced
  | collecting phase _ _ => simp [phase] at announced
  | finished phase _ _ =>
      cases routerEquation : current.distributor.router with
      | finished router =>
          rw [routerEquation] at phase
          exact .inl ⟨router, rfl,
            congrArg Handover.version (Phase.finished.inj phase)⟩
      | normal _ => simp [routerEquation, MessageRouter.phase] at phase
      | interrogate _ => simp [routerEquation, MessageRouter.phase] at phase
      | collect _ => simp [routerEquation, MessageRouter.phase] at phase
  | upgraded phase _ _ =>
      cases routerEquation : current.distributor.router with
      | normal router =>
          rw [routerEquation] at phase
          exact .inr (congrArg MessageRouter.normal (Phase.normal.inj phase))
      | interrogate _ => simp [routerEquation, MessageRouter.phase] at phase
      | collect _ => simp [routerEquation, MessageRouter.phase] at phase
      | finished _ => simp [routerEquation, MessageRouter.phase] at phase

theorem Step.noAcquire [DecidableEq K] [MaybeTime T] {job : Job K V T VO S L}
    {rescale : Rescale} {system : System K V T VO S L} {event : Event K V T}
    {worker : Worker K V T VO S L}
    {outgoing : List (WorkerId × NetworkMessage K V T)}
    (step : rescale.Step job system event worker outgoing)
    (announced : rescale.Announced (system.workers event.worker))
    (target : WorkerId) (acquire : NetworkAcquire K) :
    (target, .acquire acquire) ∉ outgoing := by
  have move := step.move
  generalize system.incoming event = incoming at move
  generalize system.received event = received at move
  generalize system.operated event = operated at move
  cases move with
  | quiet _ _ _ quietNetwork _ _ =>
      intro member
      have quiet := quietNetwork _ member
      simp [NetworkMessage.isQuiet] at quiet
  | collectNext collecting _ _ =>
      exact absurd announced (unannounced_of_collecting collecting)
  | concluded collecting _ _ =>
      exact absurd announced (unannounced_of_collecting collecting)
  | _ => simp

theorem allUpgraded_knowledge {version : Version} {remotes : Remotes T}
    (allUpgraded : ∀ state ∈ remotes.values,
      state.lastVersion = some version ∧ state.lastAckVersion = some version)
    {other : WorkerId} (client : other ∈ remotes) :
    remotes.knowledge other = ⟨some version, some version⟩ := by
  obtain ⟨state, found⟩ := IndexMap.exists_get?_of_mem client
  have member : state ∈ remotes.values :=
    List.mem_map_of_mem (IndexMap.get?_eq_some.mp found)
  obtain ⟨version, ack⟩ := allUpgraded state member
  simp [Remotes.knowledge, Remotes.lastVersion, Remotes.lastAck, found, version,
    ack]

section

variable {job : Job K V T VO S L} {rescale : Rescale}
  {system : System K V T VO S L} {worker : WorkerId}

/-- The worker has both halves of the handshake from every participant. -/
def Knows (rescale : Rescale) (worker : WorkerId)
    (system : System K V T VO S L) : Prop :=
  ∀ other ∈ rescale.participants, other ≠ worker →
    (system.workers worker).knowledge other =
      ⟨some rescale.version, some rescale.version⟩

theorem Knows.announced (knows : rescale.Knows worker system) {other : WorkerId}
    (member : other ∈ rescale.participants) (different : other ≠ worker)
    (handshake : Handshake rescale job.partitioner other worker
      (system.workers other) (system.workers worker)
      (system.links other worker)) :
    rescale.Announced (system.workers other) := by
  have known := knows other member different
  exact handshake.announced (handshake.proper.heard (by rw [known]))

/-- With the handshake of every participant recorded the handover is over. -/
theorem Knows.handedOver (knows : rescale.Knows worker system)
    (shaped : rescale.Shaped job system)
    (pair : ∀ other ∈ rescale.participants, other ≠ worker →
      Handshake rescale job.partitioner other worker (system.workers other)
        (system.workers worker) (system.links other worker)) :
    rescale.HandedOver job worker system := by
  refine ⟨?_, ?_, ?_, ?_⟩
  · intro other member different
    exact (shaped other member).announced
      (knows.announced member different (pair other member different))
  · intro other member different acquire sent
    have handshake := pair other member different
    have known := knows other member different
    have gone := handshake.proper.noAcquire (by rw [known]) acquire
    exact (handshake.delivered acquire sent).resolve_left gone
  · intro other member different
    have handshake := pair other member different
    have known := knows other member different
    exact handshake.proper.owned (by rw [known]) (by rw [known])
  · intro other member different
    have handshake := pair other member different
    exact handshake.behind (by rw [knows other member different])

end

section

variable [DecidableEq K] [MaybeTime T] {job : Job K V T VO S L}
  {rescale : Rescale} {system : System K V T VO S L}

/-- A finished router goes back to normal only when it has both halves of the
handshake from every participant. -/
theorem Step.upgrades {event : Event K V T} {worker : Worker K V T VO S L}
    {outgoing : List (WorkerId × NetworkMessage K V T)}
    (step : rescale.Step job system event worker outgoing)
    (finished : (system.workers event.worker).distributor.router.isFinished =
      true)
    (normal : worker.distributor.router.isNormal = true) :
    rescale.Knows event.worker system := by
  intro other participant different
  have notSame (same : worker.distributor.router.phase =
      (system.workers event.worker).distributor.router.phase) : False := by
    cases before : (system.workers event.worker).distributor.router <;>
      cases after : worker.distributor.router <;>
      simp_all [MessageRouter.isFinished, MessageRouter.isNormal,
        MessageRouter.phase]
  cases step.move.advance with
  | same phase _ _ _ => exact absurd phase notSame
  | copy _ _ _ phase _ _ => exact absurd phase notSame
  | rescale _ _ _ waiting _ _ _ =>
      simp [waiting, MessageRouter.isFinished] at finished
  | interrogated _ _ interrogating _ _ _ =>
      cases before : (system.workers event.worker).distributor.router <;>
        simp_all [MessageRouter.isFinished, MessageRouter.phase]
  | concluded _ collecting _ _ _ =>
      cases before : (system.workers event.worker).distributor.router <;>
        simp_all [MessageRouter.isFinished, MessageRouter.phase]
  | finished handover isFinished allUpgraded _ _ _ =>
      cases step.before with
      | finished phase _ clients =>
          have client := (clients other).mpr ⟨participant, different⟩
          obtain rfl := Phase.finished.inj (isFinished.symm.trans phase)
          exact allUpgraded_knowledge allUpgraded client
      | waiting phase _ _ => simp [phase] at isFinished
      | interrogating phase _ _ => simp [phase] at isFinished
      | collecting phase _ _ => simp [phase] at isFinished
      | upgraded phase _ _ => simp [phase] at isFinished

theorem Step.handedOver {event : Event K V T} {worker : Worker K V T VO S L}
    {outgoing : List (WorkerId × NetworkMessage K V T)}
    (step : rescale.Step job system event worker outgoing)
    (quiet : system.incoming event = none)
    (handedOver : rescale.HandedOver job event.worker system) :
    rescale.HandedOver job event.worker
      (system.moved event.worker (system.incoming event) worker outgoing) := by
  obtain ⟨output, handed, _⟩ := step.move.handed
  have sameWorker (other : WorkerId) (different : other ≠ event.worker) :
      (system.moved event.worker (system.incoming event) worker
        outgoing).workers other = system.workers other := by
    rw [System.moved_worker, if_neg different]
  have sameLink (other : WorkerId) (different : other ≠ event.worker) :
      (system.moved event.worker (system.incoming event) worker
        outgoing).links other event.worker =
          system.links other event.worker := by
    simp [System.moved_links, quiet, different]
  refine ⟨?_, ?_, ?_, ?_⟩
  · intro other member different
    rw [sameWorker other different]
    exact handedOver.announced other member different
  · intro other member different acquire sent
    rw [sameWorker other different] at sent
    rw [System.moved_worker, if_pos rfl, handed]
    exact List.mem_append_left _
      (handedOver.acquired other member different acquire sent)
  · intro other member different
    rw [sameLink other different]
    exact handedOver.owned other member different
  · intro other member different
    rw [sameLink other different, sameWorker other different]
    exact handedOver.behind other member different

theorem sent_acquire_of_announced
    {allowed : System K V T VO S L → Event K V T → Prop}
    (permits : ∀ system event, allowed system event →
      rescale.Permits system event)
    {other : WorkerId} {final : System K V T VO S L}
    (shaped : rescale.Shaped job system)
    (announced : rescale.Announced (system.workers other))
    (run : Reaches (fun state event => state.step job event) allowed system
      final) (target : WorkerId) (acquire : NetworkAcquire K)
    (sent : (target, .acquire acquire) ∈ (final.workers other).sent) :
    (target, .acquire acquire) ∈ (system.workers other).sent := by
  have kept := Rescale.run_invariant (fun state =>
    rescale.Announced (state.workers other) ∧
      ((target, .acquire acquire) ∈ (state.workers other).sent →
        (target, .acquire acquire) ∈ (system.workers other).sent))
    shaped ⟨announced, id⟩ permits ?_ run
  · exact kept.2.2 sent
  · intro state event worker outgoing _ held _ step
    rw [System.moved_worker]
    split
    next same =>
      subst same
      refine ⟨step.announced held.1, fun later => held.2 ?_⟩
      rw [step.move.sent, List.mem_append] at later
      exact later.resolve_right (step.noAcquire held.1 target acquire)
    next => exact held

end

end Rescale

/-- A router goes from finished back to normal only when the handover to its
worker is over, and nobody sends it a state of this rescale afterwards. -/
theorem finished_to_normal_handedOver [DecidableEq K] [MaybeTime T]
    {job : Job K V T VO S L} {workers : IndexSet WorkerId}
    {configVersion : Option Version} {settled system next :
      System K V T VO S L} {rescale : Rescale} {worker : WorkerId}
    (history : Settled job (fun _ => True) Rescale.Permits workers
      configVersion settled)
    (continues : rescale.Continues workers configVersion)
    (run : Reaches (fun state event => state.step job event) rescale.Permits
      (rescale.begin job settled) system)
    (permitted : rescale.Permits system (.lifecycle worker))
    (stepped : system.step job (.lifecycle worker) = .ok next)
    (finished : (system.workers worker).distributor.router.isFinished = true)
    (normal : (next.workers worker).distributor.router.isNormal = true) :
    rescale.HandedOver job worker next ∧
      ∀ final, Reaches (fun state event => state.step job event)
          rescale.Permits next final →
        ∀ other ∈ rescale.participants, other ≠ worker → ∀ acquire,
          (worker, .acquire acquire) ∈ (final.workers other).sent →
            (worker, .acquire acquire) ∈ (next.workers other).sent := by
  obtain ⟨shaped, shaken⟩ := history.shaken (fun _ _ _ => id) continues run
  have shapedNext := Rescale.shaped_step shaped permitted stepped
  rcases Rescale.step_cases shaped permitted stepped with
    rfl | ⟨moved, outgoing, step, rfl⟩
  · cases before : (next.workers worker).distributor.router <;>
      simp_all [MessageRouter.isFinished, MessageRouter.isNormal]
  · have working : ¬rescale.Upgraded (system.workers worker) := by
      cases before : (system.workers worker).distributor.router <;>
        simp_all [MessageRouter.isFinished, Rescale.Upgraded,
          MessageRouter.phase]
    have knows := step.upgrades finished
      (by simpa [System.moved_worker, Event.worker] using normal)
    have pair (other : WorkerId) (member : other ∈ rescale.participants)
        (different : other ≠ worker) := shaken other worker different member
      permitted.participant fun upgraded => absurd upgraded working
    refine ⟨step.handedOver rfl (knows.handedOver shaped pair), ?_⟩
    intro final later other member different acquire sent
    refine Rescale.sent_acquire_of_announced (fun _ _ => id) shapedNext ?_ later
      worker acquire sent
    simp only [System.moved_worker, Event.worker, different, if_false]
    exact knows.announced member different (pair other member different)

def growth : Rescale where
  old := IndexSet.ofList [0]
  new := IndexSet.ofList [0, 1]
  version := 0
  base := 0

/-- Worker 0 counts a record of key 1, then both workers rescale; worker 0 has
the whole handshake at the end. -/
def growthTrace : List (Event Nat Unit Nat) :=
  [.receiveLocal 0 (.data ⟨1, (), 0⟩), .operator 0,
    .receiveLocal 0 (.rescale growth.message), .operator 0, .sink 0, .sink 0,
    .lifecycle 0, .lifecycle 0, .operator 0, .sink 0, .lifecycle 0,
    .receiveLocal 1 (.rescale growth.message), .operator 1, .sink 1,
    .lifecycle 1, .lifecycle 1, .receiveRemote 0 1, .receiveRemote 1 0,
    .receiveRemote 1 0, .receiveRemote 1 0, .receiveRemote 0 1]

@[irreducible] def growthState : System Nat Unit Nat Nat Nat Unit :=
  replay (fun state event => System.step countJob state event)
    (growth.begin countJob (System.initial countJob growth.old)) growthTrace

theorem growth_finished_to_normal :
    ∃ system next : System Nat Unit Nat Nat Nat Unit,
      system.step countJob (.lifecycle 0) = .ok next ∧
        growth.HandedOver countJob 0 next := by
  have run : Reaches (fun state event => System.step countJob state event)
      growth.Permits (growth.begin countJob (System.initial countJob growth.old))
      growthState := by
    unfold growthState
    exact Follows.reaches growthTrace .refl (by decide +kernel)
  have last : Follows (fun state event => System.step countJob state event)
      growth.Permits growthState [.lifecycle 0] := by decide +kernel
  have handedOver := finished_to_normal_handedOver (.start trivial)
    ⟨rfl, rfl, by simp⟩ run last.1 last.stepped (by decide +kernel)
    (by decide +kernel)
  exact ⟨_, _, last.stepped, handedOver.1⟩

end Malstrom.Keyed
