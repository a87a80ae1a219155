import Malstrom.Keyed.Custody

namespace Malstrom.Keyed

open Data Operators

variable {K V T VO S L : Type}

/-! No key has state at two workers while a rescale moves it, and its records are
handed down only where nobody else has anything of it, as long as a worker which
keeps a record can tell that the old owner has given up the key. -/

namespace Rescale

/-- Nobody but the worker has anything of the key: no other operator, no router
which collects it and no message on a link. -/
structure Sole (rescale : Rescale) (system : System K V T VO S L)
    (worker : WorkerId) (key : K) : Prop where
  operators : ∀ other ∈ rescale.participants, other ≠ worker →
    ¬(system.workers other).Holds key
  collections : ∀ other ∈ rescale.participants, ∀ router,
    (system.workers other).distributor.router = .collect router →
      router.currentKey ≠ some key
  acquires : ∀ source target acquire,
    .acquire acquire ∈ system.links source target → acquire.key ≠ key

section

variable [DecidableEq K] [MaybeTime T] {job : Job K V T VO S L}
  {rescale : Rescale} {system : System K V T VO S L} {event : Event K V T}
  {worker : Worker K V T VO S L}
  {outgoing : List (WorkerId × NetworkMessage K V T)} {key : K}

structure Secured (rescale : Rescale) (job : Job K V T VO S L)
    (system : System K V T VO S L) : Prop where
  kept : rescale.Kept job system
  tidy : ∀ worker ∈ rescale.participants, rescale.Tidy job.partitioner worker
    (system.workers worker).distributor.router
  custody : ∀ key, rescale.Custody job system key

theorem Step.secured (selects : Selects job.partitioner)
    (keeps : job.operator.logic.KeepsKeys) (nonempty : rescale.old.items ≠ [])
    (base : rescale.base ≤ rescale.version)
    (shaped : rescale.Shaped job system) (secured : rescale.Secured job system)
    (careful : rescale.Careful job system event)
    (step : rescale.Step job system event worker outgoing) :
    rescale.Secured job
      (system.moved event.worker (system.incoming event) worker outgoing) where
  kept := step.kept keeps base secured.kept careful.1
  tidy other member := by
    have tidy := secured.tidy event.worker step.participant
    rw [System.moved_worker]
    split
    next same => exact same ▸ step.tidy tidy
    next => exact secured.tidy other member
  custody key := step.custody selects keeps nonempty shaped secured.kept
    (secured.tidy event.worker step.participant) (secured.custody key) careful

omit [MaybeTime T] in
/-- A key which has been given up is held by its old owner only where that is the
new one too. -/
theorem Secured.owned_of_givenUp (selects : Selects job.partitioner)
    (nonempty : rescale.old.items ≠ [])
    (shaped : rescale.Shaped job system) (secured : rescale.Secured job system)
    (givenUp : rescale.GivenUp job system key)
    (holds : (system.workers
      (job.partitioner key rescale.old)).Holds key) :
    job.partitioner key rescale.new = job.partitioner key rescale.old := by
  have old := selects key rescale.old nonempty
  have member : job.partitioner key rescale.old ∈ rescale.participants :=
    mem_participants.mpr (.inl old)
  exact owned_of_settles (shaped _ member) (secured.kept.stationed _ member)
    (by rw [(buildSet_of_old old).1]) givenUp holds

omit [MaybeTime T] in
theorem Secured.holder_unique (selects : Selects job.partitioner)
    (nonempty : rescale.old.items ≠ [])
    (shaped : rescale.Shaped job system) (secured : rescale.Secured job system)
    {left right : WorkerId} (leftMember : left ∈ rescale.participants)
    (rightMember : right ∈ rescale.participants)
    (leftHolds : (system.workers left).Holds key)
    (rightHolds : (system.workers right).Holds key) : left = right := by
  have custody := secured.custody key
  rcases custody.holders left leftMember leftHolds with rfl | ⟨rfl, passed⟩
  · rcases custody.holders right rightMember rightHolds with
      isFormer | ⟨rfl, passed⟩
    · exact isFormer.symm
    · exact (secured.owned_of_givenUp selects nonempty shaped passed.givenUp
        leftHolds).symm
  · rcases custody.holders right rightMember rightHolds with rfl | ⟨rfl, -⟩
    · exact secured.owned_of_givenUp selects nonempty shaped passed.givenUp
        rightHolds
    · rfl

theorem Step.not_kept_of_current (kept : rescale.Kept job system)
    (tidy : rescale.Tidy job.partitioner event.worker
      (system.workers event.worker).distributor.router)
    (step : rescale.Step job system event worker outgoing)
    {arrival : Arrival K V T} {router : MessageRouter K V T}
    {collecting : CollectRouter K V T}
    (isCollecting : (system.workers event.worker).distributor.router =
      .collect collecting)
    (isCurrent : collecting.currentKey = some arrival.message.key)
    (former : job.partitioner arrival.message.key
      (rescale.buildSet event.worker) = event.worker)
    (arrives : system.arrival event = some arrival)
    (routed : Routed job.partitioner event.worker
      (system.workers event.worker).distributor.remotes arrival
      (system.workers event.worker).distributor.router router
      (some event.worker)) : False := by
  have newAway : job.partitioner arrival.message.key rescale.new ≠
      event.worker := by
    have leaves := tidy.leaves arrival.message.key (by
      rw [isCollecting]
      exact .inr (Option.map_eq_some_iff.mp isCurrent))
    rw [former] at leaves
    exact leaves.symm
  have course := step.before.course routed
  have sameRouter {other : MessageRouter K V T}
      (isOther : (system.workers event.worker).distributor.router = other) :
      MessageRouter.collect collecting = other :=
    isCollecting.symm.trans isOther
  generalize isTarget : some event.worker = target at course
  cases course with
  | ahead isVersion newer =>
      obtain ⟨message, rfl, linked⟩ := step.arrival_version arrives isVersion
      rw [isCollecting] at newer
      have isVersion := (step.before.collecting_clients isCollecting).1
      exact absurd (isVersion ▸ newer)
        (Nat.not_lt.mpr (kept.dated _ _ message linked))
  | uncollected other _ _ listed =>
      obtain rfl := MessageRouter.collect.inj (sameRouter other)
      exact tidy.unlisted collecting isCollecting _ isCurrent listed
  | collected _ _ away _ _ => exact away (Option.some.inj isTarget).symm
  | collectOwned _ _ newHere _ | collectOld _ _ newHere _ =>
      exact newAway newHere
  | buffered => cases isTarget
  | waiting other _ | listed other _ _ _ | interrogating other _ _
  | finishedAway other _ _ | finishedOwned other _ _ _
  | finishedOld other _ _ _ _ _ | upgraded other _ =>
      cases sameRouter other

/-- A record is kept only where nobody else has anything of its key. -/
theorem Step.keeps_sole (selects : Selects job.partitioner)
    (keeps : job.operator.logic.KeepsKeys) (nonempty : rescale.old.items ≠ [])
    (base : rescale.base ≤ rescale.version)
    (shaped : rescale.Shaped job system) (secured : rescale.Secured job system)
    (careful : rescale.Careful job system event)
    (step : rescale.Step job system event worker outgoing)
    {arrival : Arrival K V T} {router : MessageRouter K V T}
    (arrives : system.arrival event = some arrival)
    (routed : Routed job.partitioner event.worker
      (system.workers event.worker).distributor.remotes arrival
      (system.workers event.worker).distributor.router router
      (some event.worker))
    (holds : worker.Holds arrival.message.key) :
    rescale.Sole system event.worker arrival.message.key := by
  have custody := secured.custody arrival.message.key
  have tidy := secured.tidy event.worker step.participant
  have shapedAfter := step.shaped shaped
  have after := step.secured selects keeps nonempty base shaped secured careful
  have old := selects arrival.message.key rescale.old nonempty
  have here := step.keeps_passed selects nonempty shaped secured.kept custody
    careful.2.2 arrives routed
  refine ⟨?_, ?_, ?_⟩
  · intro other member different held
    have still : ((system.moved event.worker (system.incoming event) worker
        outgoing).workers other).Holds arrival.message.key := by
      rw [System.moved_worker, if_neg different]
      exact held
    have now : ((system.moved event.worker (system.incoming event) worker
        outgoing).workers event.worker).Holds arrival.message.key := by
      rw [System.moved_worker, if_pos rfl]
      exact holds
    exact different (after.holder_unique selects nonempty shapedAfter member
      step.participant still now)
  · intro other member collecting isCollecting isCurrent
    have collects : (system.workers other).distributor.router.Collects
        arrival.message.key := by
      rw [isCollecting]
      exact .inr (Option.map_eq_some_iff.mp isCurrent)
    obtain rfl := custody.collects other member collects
    rcases here with isFormer | ⟨-, passed⟩
    · rw [← isFormer] at isCollecting old
      refine step.not_kept_of_current secured.kept tidy isCollecting isCurrent
        ?_ arrives routed
      rw [(buildSet_of_old old).1]
      exact isFormer.symm
    · have given := passed.givenUp
      rw [GivenUp, isCollecting] at given
      rw [isCollecting] at collects
      exact given collects
  · intro source target acquire linked isKey
    obtain ⟨rfl, rfl⟩ := custody.acquires source target acquire linked isKey
    rcases here with isFormer | ⟨-, passed⟩
    · have given := step.givenUp tidy (custody.givenUp _ linked isKey)
      have same := after.owned_of_givenUp selects nonempty shapedAfter given (by
        rw [System.moved_worker, if_pos isFormer.symm]
        exact holds)
      exact (secured.kept.underway.addressed _ _ acquire linked).1.2.2 same.symm
    · exact passed.arrived acquire linked isKey

/-! ### Between two rescales -/

/-- A worker which is back to normal has both halves of the handshake. -/
def Informed (rescale : Rescale) (system : System K V T VO S L) : Prop :=
  ∀ worker ∈ rescale.participants,
    rescale.Upgraded (system.workers worker) →
    ∀ other ∈ rescale.new, other ≠ worker →
      (system.workers worker).knowledge other =
        ⟨some rescale.version, some rescale.version⟩

theorem Step.informed (shaken : rescale.Shaken job system)
    (informed : rescale.Informed system)
    (step : rescale.Step job system event worker outgoing) :
    rescale.Informed
      (system.moved event.worker (system.incoming event) worker outgoing) := by
  intro changed member upgraded other new different
  rw [System.moved_worker] at upgraded ⊢
  split at upgraded
  next same =>
    subst same
    rw [if_pos rfl]
    have participant : other ∈ rescale.participants :=
      mem_participants.mpr (.inr new)
    have before : (system.workers event.worker).knowledge other =
        ⟨some rescale.version, some rescale.version⟩ := by
      by_cases already : rescale.Upgraded (system.workers event.worker)
      · exact informed _ member already other new different
      · exact step.knows already upgraded other participant different
    have proper := (shaken other event.worker different participant member
      fun _ => new).proper
    rw [step.knowledge other fun _ => new, before]
    rw [before] at proper
    cases taken : system.incoming event with
    | none => rfl
    | some arrived =>
        by_cases isSender : arrived.1 = other
        · have head := (step.head arrived taken).2
          rw [isSender] at head
          simp only [Knowledge.told, if_pos isSender]
          cases link : system.links other event.worker with
          | nil => simp [link] at head
          | cons first rest =>
              rw [link] at head proper
              obtain rfl : first = arrived.2 := Option.some.inj head
              have first := proper.1
              cases message : arrived.2 with
              | upgrade version =>
                  rw [message] at first
                  simp only [Knowledge.learn, first rfl]
              | ackUpgrade version =>
                  rw [message] at first
                  simp only [Knowledge.learn, first rfl]
              | _ => rfl
        · simp only [Knowledge.told, if_neg isSender]
  next other' =>
    rw [if_neg other']
    exact informed changed member upgraded other new different

end

end Rescale

/-- Between two rescales every record between two workers is on the way to the
worker which owns its key. -/
theorem Settled.owned [DecidableEq K] [MaybeTime T] {job : Job K V T VO S L}
    {admissible : IndexSet WorkerId → Prop}
    {allowed : Rescale → System K V T VO S L → Event K V T → Prop}
    (permits : ∀ rescale system event, allowed rescale system event →
      rescale.Permits system event)
    {workers : IndexSet WorkerId} {configVersion : Option Version}
    {system : System K V T VO S L}
    (settled : Settled job admissible allowed workers configVersion system)
    {source target : WorkerId} (sender : source ∈ workers)
    (receiver : target ∈ workers) (different : source ≠ target)
    {message : NetworkDataMessage K V T}
    (linked : .data message ∈ system.links source target) :
    job.partitioner message.content.key workers = target := by
  cases settled with
  | start _ => cases linked
  | rescaled rescale history continues _ run completed =>
      obtain ⟨running, stale⟩ := history.running permits
      obtain ⟨rfl, baseEquation, later⟩ := continues
      rw [← baseEquation] at running
      obtain ⟨-, shaken, informed⟩ := Rescale.run_invariant
        (fun state => rescale.Shaken job state ∧ rescale.Informed state)
        (Rescale.begin_shaped running)
        ⟨Rescale.begin_shaken stale later, fun worker member upgraded =>
          absurd upgraded (Rescale.begin_working running member)⟩
        (permits rescale)
        (fun _ _ _ _ _ both _ step =>
          ⟨step.shaken both.1, step.informed both.1 both.2⟩) run
      have participates {worker : WorkerId} (member : worker ∈ rescale.new) :
          worker ∈ rescale.participants :=
        Rescale.mem_participants.mpr (.inr member)
      have known := informed target (participates receiver)
        (completed target (participates receiver)) source sender different
      have pair := shaken source target different (participates sender)
        (participates receiver) fun _ => sender
      exact (pair.proper.owned (by rw [known]) (by rw [known]) message
        linked).1

/-- A record on a link is of an earlier version than the rescale which is about
to begin. -/
theorem Settled.earlier [DecidableEq K] [MaybeTime T] {job : Job K V T VO S L}
    {admissible : IndexSet WorkerId → Prop}
    {allowed : Rescale → System K V T VO S L → Event K V T → Prop}
    {workers : IndexSet WorkerId} {configVersion : Option Version}
    {system : System K V T VO S L} {rescale : Rescale}
    (settled : Settled job admissible allowed workers configVersion system)
    (homed : Homed job.partitioner workers (configVersion.getD 0) system)
    (continues : rescale.Continues workers configVersion)
    {source target : WorkerId} {message : NetworkDataMessage K V T}
    (linked : .data message ∈ system.links source target) :
    message.version < rescale.version := by
  have bounded := homed.dated source target message linked
  cases settled with
  | start _ => cases linked
  | rescaled => exact Nat.lt_of_le_of_lt bounded (continues.later _ rfl)

namespace Rescale

section

variable [DecidableEq K] {job : Job K V T VO S L} {rescale : Rescale}
  {settled : System K V T VO S L} {key : K}

omit [DecidableEq K] in
theorem begin_custody
    (running : Running rescale.old rescale.base settled)
    (homed : Homed job.partitioner rescale.old rescale.base settled)
    (former : job.partitioner key rescale.old ∈ rescale.old)
    (earlier : ∀ source target message,
      .data message ∈ settled.links source target →
        message.version < rescale.version)
    (owned : ∀ source ∈ rescale.old, ∀ target ∈ rescale.old, source ≠ target →
      ∀ message, .data message ∈ settled.links source target →
        job.partitioner message.content.key rescale.old = target) :
    rescale.Custody job (rescale.begin job settled) key where
  holders worker member holds := by
    left
    by_cases old : worker ∈ rescale.old
    · simp only [begin, old, if_true, Worker.Holds] at holds
      rcases holds with held | ⟨message, queued, found⟩
      · exact (homed.state worker old key held).symm
      · exact (homed.queue worker old message queued key found).symm
    · have new : worker ∈ rescale.new :=
        (mem_participants.mp member).resolve_left old
      simp [begin, old, new, Worker.build, Worker.Holds] at holds
  collects worker member collects := by
    rw [begin_router running member] at collects
    exact collects.elim
  acquires source target acquire linked _ :=
    absurd linked (homed.noAcquire source target acquire)
  givenUp message linked bears := by
    cases message with
    | data message =>
        exact absurd bears.2 (Nat.ne_of_lt (earlier _ _ message linked))
    | acquire acquire => exact absurd linked (homed.noAcquire _ _ acquire)
    | epoch | barrierMarker | suspendMarker | upgrade | ackUpgrade => cases bears
  ordered := by
    refine List.pairwise_of_forall_mem_list ?_
    rintro _ _ later linked ⟨acquire, rfl, -⟩
    exact absurd linked (homed.noAcquire _ _ acquire)
  current moves old message linked isKey := by
    have isOwner := owned _ former _ old moves message linked
    rw [isKey] at isOwner
    exact absurd isOwner moves

end

variable [DecidableEq K] [MaybeTime T] {job : Job K V T VO S L}
  {rescale : Rescale} {system next : System K V T VO S L} {event : Event K V T}

theorem run_secured (selects : Selects job.partitioner)
    (keeps : job.operator.logic.KeepsKeys)
    {workers : IndexSet WorkerId} {configVersion : Option Version}
    {settled : System K V T VO S L}
    (history : Settled job (fun workers => workers.items ≠ [])
      (fun rescale system event => rescale.Permits system event ∧
        rescale.Careful job system event) workers configVersion settled)
    (continues : rescale.Continues workers configVersion)
    (run : Reaches (fun state event => state.step job event)
      (fun system event => rescale.Permits system event ∧
        rescale.Careful job system event)
      (rescale.begin job settled) system) :
    rescale.Shaped job system ∧ rescale.Secured job system := by
  have homed := history.homed keeps
    fun _ _ _ allowed => ⟨allowed.1, allowed.2.1⟩
  have earlier {source target : WorkerId} {message : NetworkDataMessage K V T}
      (linked : .data message ∈ settled.links source target) :=
    history.earlier homed continues linked
  have owned {source target : WorkerId} (sender : source ∈ workers)
      (receiver : target ∈ workers) (different : source ≠ target)
      {message : NetworkDataMessage K V T}
      (linked : .data message ∈ settled.links source target) :=
    history.owned (fun _ _ _ => And.left) sender receiver different linked
  obtain ⟨running, stale⟩ := history.running fun _ _ _ => And.left
  have nonempty := history.valid
  have base := continues.base_le
  obtain ⟨rfl, baseEquation, later⟩ := continues
  rw [← baseEquation] at running homed
  refine run_invariant (rescale.Secured job) (begin_shaped running) ?_
    (fun _ _ => And.left)
    (fun _ _ _ _ shaped secured allowed step =>
      step.secured selects keeps nonempty base shaped secured allowed.2) run
  refine ⟨begin_kept running homed base (begin_shaken stale later), ?_, ?_⟩
  · intro worker member
    rw [begin_router running member]
    exact ⟨fun _ => False.elim, nofun, nofun, nofun⟩
  · intro key
    exact begin_custody running homed (selects key rescale.old nonempty)
      (fun _ _ _ linked => earlier linked)
      fun _ sender _ receiver different _ linked =>
        owned sender receiver different linked

theorem Step.handed_record {worker : Worker K V T VO S L}
    {outgoing : List (WorkerId × NetworkMessage K V T)}
    (step : rescale.Step job system event worker outgoing)
    {output : List (Message K V T)} {record : DataMessage K V T}
    (handed : worker.handed = (system.workers event.worker).handed ++ output)
    (member : .data record ∈ output) :
    worker.Holds record.key ∧
      ∃ arrival router, system.arrival event = some arrival ∧
        arrival.message = record ∧
        Routed job.partitioner event.worker
          (system.workers event.worker).distributor.remotes arrival
          (system.workers event.worker).distributor.router router
          (some event.worker) := by
  have move := step.move
  unfold System.arrival
  generalize system.incoming event = incoming at move ⊢
  generalize system.received event = received at move ⊢
  generalize system.operated event = operated at move
  cases move with
  | quiet _ _ quietOutput _ _ _ =>
      obtain rfl := List.append_cancel_left handed
      have quiet := quietOutput _ member
      simp [Message.isQuiet] at quiet
  | kept arrives routed =>
      obtain rfl := List.append_cancel_left handed
      obtain rfl := Message.data.inj (List.mem_singleton.mp member)
      exact ⟨.inr ⟨_, List.mem_append_right _ member, rfl⟩, _, _, arrives, rfl,
        routed⟩
  | scheduled | received | sink =>
      obtain rfl := List.self_eq_append_right.mp handed
      cases member
  | _ =>
      obtain rfl := List.append_cancel_left handed
      simp at member

end Rescale

/-- As long as every record which is kept for its version or by a joining worker
is vouched for, and no key is stranded or collected by its new owner, no key has
state at two workers, and a record is handed down only where nobody else has
anything of its key. -/
theorem keys_exclusive [DecidableEq K] [MaybeTime T] {job : Job K V T VO S L}
    {workers : IndexSet WorkerId} {configVersion : Option Version}
    {settled system : System K V T VO S L} {rescale : Rescale}
    (selects : Rescale.Selects job.partitioner)
    (keeps : job.operator.logic.KeepsKeys)
    (history : Settled job (fun workers => workers.items ≠ [])
      (fun rescale system event => rescale.Permits system event ∧
        rescale.Careful job system event) workers configVersion settled)
    (continues : rescale.Continues workers configVersion)
    (run : Reaches (fun state event => state.step job event)
      (fun system event => rescale.Permits system event ∧
        rescale.Careful job system event)
      (rescale.begin job settled) system) :
    (∀ key, ∀ left ∈ rescale.participants, ∀ right ∈ rescale.participants,
      key ∈ (system.workers left).operator.state →
      key ∈ (system.workers right).operator.state → left = right) ∧
    ∀ event next output record, rescale.Permits system event →
      rescale.Careful job system event →
      system.step job event = .ok next →
      (next.workers event.worker).handed =
        (system.workers event.worker).handed ++ output →
      .data record ∈ output →
      rescale.Sole system event.worker record.key := by
  have nonempty : rescale.old.items ≠ [] := continues.old ▸ history.valid
  have base := continues.base_le
  obtain ⟨shaped, secured⟩ := Rescale.run_secured selects keeps history continues
    run
  refine ⟨fun key left leftMember right rightMember leftHeld rightHeld =>
    secured.holder_unique selects nonempty shaped leftMember rightMember
      (.inl leftHeld) (.inl rightHeld), ?_⟩
  intro event next output record permitted careful stepped handed member
  rcases Rescale.step_cases shaped permitted stepped with
    rfl | ⟨worker, outgoing, step, rfl⟩
  · obtain rfl := List.self_eq_append_right.mp handed
    cases member
  · rw [System.moved_worker, if_pos rfl] at handed
    obtain ⟨holds, arrival, router, arrives, rfl, routed⟩ :=
      step.handed_record handed member
    exact step.keeps_sole selects keeps nonempty base shaped secured careful
      arrives routed holds

/-- Worker 1 counts another record of key 1 once it has the state. -/
theorem grown_exclusive :
    (∀ key, ∀ left ∈ growth.participants, ∀ right ∈ growth.participants,
      key ∈ (grownState.workers left).operator.state →
      key ∈ (grownState.workers right).operator.state → left = right) ∧
    1 ∈ (grownState.workers 1).operator.state ∧
    growth.Sole grownState 1 1 := by
  have run : Reaches (fun state event => System.step countJob state event)
      (fun system event => growth.Permits system event ∧
        growth.Careful countJob system event)
      (growth.begin countJob (System.initial countJob growth.old))
      grownState := by
    unfold grownState
    exact Follows.reaches grownTrace .refl (by decide +kernel)
  have follows : Follows (fun state event => System.step countJob state event)
      (fun system event => growth.Permits system event ∧
        growth.Careful countJob system event) grownState
      [.receiveLocal 1 (.data ⟨1, (), 0⟩)] := by decide +kernel
  have exclusive := keys_exclusive
    (fun key _ nonempty => indexSelect_mem key nonempty) countLogic_keepsKeys
    (.start (by decide)) ⟨rfl, rfl, by simp⟩ run
  exact ⟨exclusive.1, by decide +kernel, exclusive.2 _ _ [.data ⟨1, (), 0⟩]
    ⟨1, (), 0⟩ follows.1.1 follows.1.2 follows.stepped (by decide +kernel)
    (.head _)⟩

/-- Both workers count a record of key 1 before the rescale message comes. -/
def sharingTrace : List (Event Nat Unit Nat) :=
  [.receiveLocal 0 (.data ⟨1, (), 0⟩), .operator 0,
    .receiveLocal 1 (.data ⟨1, (), 1⟩), .operator 1]

@[irreducible] def sharingState : System Nat Unit Nat Nat Nat Unit :=
  replay (fun state event => System.step countJob state event)
    (growth.begin countJob (System.initial countJob growth.old)) sharingTrace

/-- Worker 2 has state of key 2 when worker 1, which collects already, sends a
record of the key to worker 0. -/
def leapTrace : List (Event Nat Unit Nat) :=
  [.receiveLocal 2 (.data ⟨2, (), 0⟩), .operator 2,
    .receiveLocal 1 (.rescale departure.message), .operator 1, .sink 1,
    .lifecycle 1, .receiveLocal 1 (.data ⟨2, (), 1⟩), .receiveRemote 0 1,
    .operator 0]

@[irreducible] def leapState : System Nat Unit Nat Nat Nat Unit :=
  replay (fun state event => System.step countJob state event)
    (departure.begin countJob (System.initial countJob departure.old)) leapTrace

/-- A joining worker takes itself for the owner of a key, and a worker which has
not seen the rescale message keeps a record of a higher version. -/
theorem key_at_two_workers :
    (Reaches (fun state event => System.step countJob state event)
        growth.Permits
        (growth.begin countJob (System.initial countJob growth.old))
        sharingState ∧
      1 ∈ (sharingState.workers 0).operator.state ∧
      1 ∈ (sharingState.workers 1).operator.state) ∧
    Reaches (fun state event => System.step countJob state event)
        departure.Permits
        (departure.begin countJob (System.initial countJob departure.old))
        leapState ∧
      2 ∈ (leapState.workers 0).operator.state ∧
      2 ∈ (leapState.workers 2).operator.state := by
  refine ⟨⟨?_, by decide +kernel, by decide +kernel⟩, ?_, by decide +kernel,
    by decide +kernel⟩
  · unfold sharingState
    exact Follows.reaches sharingTrace .refl (by decide +kernel)
  · unfold leapState
    exact Follows.reaches leapTrace .refl (by decide +kernel)

end Malstrom.Keyed
