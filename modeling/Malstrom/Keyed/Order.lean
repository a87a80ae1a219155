import Malstrom.Keyed.Hops

namespace Malstrom.Keyed

open Data Operators

variable {K V T VO S L : Type}

/-! Two records of one key which one worker takes from its upstream.  As long as
no worker routes the second past the first, it stays behind the first on every
way through the workers. -/

section

variable {μ ρ : Type} {record? : μ → Option ρ} {first second : ρ}
  {passed passed' : Prop} {messages more : List μ}

def Behind (record? : μ → Option ρ) (first second : ρ) :
    Prop → List μ → Prop :=
  Judged (fun passed message => passed ∨ record? message = some first)
    fun passed message => record? message = some second → passed

theorem passed_after :
    viewAfter (fun passed message => passed ∨ record? message = some first)
        passed messages ↔
      passed ∨ ∃ message ∈ messages, record? message = some first := by
  induction messages generalizing passed with
  | nil => simp [viewAfter]
  | cons message rest ih =>
      have viewStep : viewAfter
          (fun passed message => passed ∨ record? message = some first) passed
            (message :: rest) =
          viewAfter
            (fun passed message => passed ∨ record? message = some first)
            (passed ∨ record? message = some first) rest := rfl
      rw [viewStep, ih]
      simp [or_assoc]

theorem Behind.mono (behind : Behind record? first second passed messages)
    (later : passed → passed') :
    Behind record? first second passed' messages := by
  induction messages generalizing passed passed' with
  | nil => trivial
  | cons message rest ih =>
      exact ⟨fun isSecond => later (behind.1 isSecond),
        ih behind.2 fun before => before.imp later id⟩

theorem behind_append :
    Behind record? first second passed (messages ++ more) ↔
      Behind record? first second passed messages ∧
        Behind record? first second
          (passed ∨ ∃ message ∈ messages, record? message = some first)
          more := by
  rw [← passed_after]
  exact judged_append

theorem behind_without
    (without : ∀ message ∈ messages, record? message ≠ some second) :
    Behind record? first second passed messages := by
  induction messages generalizing passed with
  | nil => trivial
  | cons message rest ih =>
      exact ⟨fun isSecond => absurd isSecond (without message (.head _)),
        ih fun later member => without later (.tail _ member)⟩

end

/-- The key under collection is not listed any more. -/
def MessageRouter.Unlisted (router : MessageRouter K V T) : Prop :=
  ∀ collecting, router = .collect collecting →
    ∀ key, collecting.currentKey = some key → key ∉ collecting.whitelist

theorem unlisted_of_routed [DecidableEq K] {partitioner : WorkerPartitioner K}
    {thisWorker : WorkerId} {remotes : Remotes T} {arrival : Arrival K V T}
    {router router' : MessageRouter K V T} {target : Option WorkerId}
    (unlisted : router.Unlisted)
    (routed : Routed partitioner thisWorker remotes arrival router router'
      target) : router'.Unlisted := by
  cases routed with
  | ahead _ _ => exact unlisted
  | ruled _ rule =>
      cases rule with
      | @buffered router =>
          intro collecting isCollecting
          cases isCollecting
          exact unlisted router rfl
      | whitelisted => exact nofun
      | _ => exact unlisted

theorem unlisted_takeReport [DecidableEq K] {distributor : Distributor K V T}
    (unlisted : distributor.router.Unlisted) (report : Report K S) :
    (distributor.takeReport report).router.Unlisted := by
  cases isRouter : distributor.router with
  | collect router =>
      obtain ⟨next, isNext, isWhitelist, -, isCurrent⟩ :=
        distributor.takeReport_collect report isRouter
      intro collecting isCollecting
      obtain rfl : next = collecting := by
        rw [isNext] at isCollecting
        exact MessageRouter.collect.inj isCollecting
      rw [isWhitelist, isCurrent]
      exact unlisted router isRouter
  | normal | interrogate | finished =>
      intro collecting isCollecting
      cases report <;>
        simp [Distributor.takeReport, isRouter] at isCollecting

namespace Rescale

/-- What a router collects is to leave the worker, and is held back only while
its key is under collection. -/
structure Tidy (rescale : Rescale) (partitioner : WorkerPartitioner K)
    (worker : WorkerId) (router : MessageRouter K V T) : Prop where
  leaves : ∀ key, router.Collects key →
    partitioner key (rescale.buildSet worker) ≠ partitioner key rescale.new
  unlisted : router.Unlisted
  bundled : router.Bundled
  away : ∀ message ∈ router.buffered,
    partitioner message.key rescale.new ≠ worker

/-- The router sends all records of the key to the new owner. -/
def Settles (rescale : Rescale) (partitioner : WorkerPartitioner K) (key : K) :
    MessageRouter K V T → Prop
  | .normal router =>
      partitioner key router.workerSet = partitioner key rescale.new
  | .interrogate router =>
      partitioner key router.oldWorkerSet = partitioner key rescale.new
  | .collect router => ¬(MessageRouter.collect router).Collects key
  | .finished _ => True

section

variable [DecidableEq K] [MaybeTime T] {job : Job K V T VO S L}
  {rescale : Rescale} {system : System K V T VO S L} {event : Event K V T}
  {worker : Worker K V T VO S L}
  {outgoing : List (WorkerId × NetworkMessage K V T)}

omit [DecidableEq K] [MaybeTime T] in
theorem buffered_of_released {partitioner : WorkerPartitioner K}
    {remotes : Remotes T} {clones : Nat} {router released : CollectRouter K V T}
    {network : List (WorkerId × NetworkMessage K V T)}
    (release : Released partitioner remotes clones router released network) :
    ∀ message ∈ released.buffered, message ∈ router.buffered := by
  cases release with
  | idle => exact fun _ => id
  | released => nofun

section

variable {thisWorker : WorkerId} {current next : Worker K V T VO S L}
  {incoming : Option (WorkerId × NetworkMessage K V T)}
  {received : List (Message K V T)} {operated : Option (Message K V T)}

theorem unlisted_of_move (unlisted : current.distributor.router.Unlisted)
    (move : Move job thisWorker current incoming received operated next
      outgoing) : next.distributor.router.Unlisted := by
  cases move with
  | quiet sameRouter _ _ _ _ _ =>
      simpa only [Worker.after, sameRouter] using unlisted
  | kept _ routed | buffered _ routed | forwarded _ routed _ _ =>
      exact unlisted_of_routed unlisted routed
  | acquire | upgrade | ackUpgrade | rescaleCopy | scheduled | sink =>
      exact unlisted
  | rescale | finished | concluded =>
      intro collecting isCollecting
      cases isCollecting
  | interrogated =>
      intro collecting isCollecting key isCurrent
      cases isCollecting
      cases isCurrent
  | collectNext _ _ next =>
      intro collecting isCollecting key isCurrent
      cases isCollecting
      cases isCurrent
      exact (IndexSet.pop_eq_some next).2
  | @received _ _ _ _ _ report _ _ reports =>
      rw [reports]
      exact unlisted_takeReport unlisted report

theorem away_of_move
    (away : ∀ message ∈ current.distributor.router.buffered,
      job.partitioner message.key rescale.new ≠ thisWorker)
    (shape : rescale.Shape job.partitioner thisWorker current)
    (move : Move job thisWorker current incoming received operated next
      outgoing) :
    ∀ message ∈ next.distributor.router.buffered,
      job.partitioner message.key rescale.new ≠ thisWorker := by
  cases move with
  | quiet sameRouter _ _ _ _ _ =>
      simpa only [Worker.after, sameRouter] using away
  | kept _ routed | forwarded _ routed _ _ =>
      simpa only [Worker.after, (buffered_of_routed routed).1] using away
  | buffered _ routed =>
      cases shape.course routed with
      | buffered collecting _ newAway _ _ =>
          rw [collecting] at away
          intro message isHeld
          rcases List.mem_append.mp isHeld with before | last
          · exact away message before
          · rw [List.mem_singleton.mp last]
            exact newAway
  | acquire | upgrade | ackUpgrade | rescaleCopy | scheduled | sink =>
      exact away
  | rescale | interrogated | finished | concluded =>
      exact fun _ isHeld => absurd isHeld List.not_mem_nil
  | collectNext collecting release _ =>
      rw [collecting] at away
      exact fun message isHeld =>
        away message (buffered_of_released release message isHeld)
  | @received _ _ _ _ _ report _ _ reports =>
      rw [reports, (buffered_takeReport current.distributor report).1]
      exact away

end

theorem Step.tidy
    (tidy : rescale.Tidy job.partitioner event.worker
      (system.workers event.worker).distributor.router)
    (step : rescale.Step job system event worker outgoing) :
    rescale.Tidy job.partitioner event.worker worker.distributor.router where
  leaves key collects := by
    rcases step.collects collects with
      before | ⟨newAway, oldHere, -⟩ | ⟨-, -, moves⟩
    · exact tidy.leaves key before
    · rw [oldHere]
      exact newAway.symm
    · exact moves
  unlisted := unlisted_of_move tidy.unlisted step.move
  bundled := bundled_of_move step.before tidy.bundled step.move
  away := away_of_move tidy.away step.before step.move

/-! ### Where a worker sends a key for good -/

omit [DecidableEq K] [MaybeTime T] in
theorem Shape.interrogating_handover {thisWorker : WorkerId}
    {current : Worker K V T VO S L} {router : InterrogateRouter K}
    (shape : rescale.Shape job.partitioner thisWorker current)
    (interrogating : current.distributor.router = .interrogate router) :
    (⟨router.version, router.oldWorkerSet, router.newWorkerSet,
        router.trigger⟩ : Handover) =
      rescale.handover thisWorker (rescale.buildVersion thisWorker) := by
  cases shape with
  | interrogating phase _ _ =>
      rw [interrogating] at phase
      exact (Phase.interrogate.inj phase).1
  | waiting phase _ _ => simp [interrogating, MessageRouter.phase] at phase
  | collecting phase _ _ => simp [interrogating, MessageRouter.phase] at phase
  | finished phase _ _ => simp [interrogating, MessageRouter.phase] at phase
  | upgraded phase _ _ => simp [interrogating, MessageRouter.phase] at phase

omit [DecidableEq K] [MaybeTime T] in
theorem Shape.finished_handover {thisWorker : WorkerId}
    {current : Worker K V T VO S L} {router : FinishedRouter}
    (shape : rescale.Shape job.partitioner thisWorker current)
    (finished : current.distributor.router = .finished router) :
    (⟨router.version, router.oldWorkerSet, router.newWorkerSet,
        router.trigger⟩ : Handover) =
      rescale.handover thisWorker rescale.version := by
  cases shape with
  | finished phase _ _ =>
      rw [finished] at phase
      exact Phase.finished.inj phase
  | waiting phase _ _ => simp [finished, MessageRouter.phase] at phase
  | interrogating phase _ _ => simp [finished, MessageRouter.phase] at phase
  | collecting phase _ _ => simp [finished, MessageRouter.phase] at phase
  | upgraded phase _ _ => simp [finished, MessageRouter.phase] at phase

omit [DecidableEq K] [MaybeTime T] in
theorem Shape.interrogating_sets {thisWorker : WorkerId}
    {current : Worker K V T VO S L} {router : InterrogateRouter K}
    (shape : rescale.Shape job.partitioner thisWorker current)
    (interrogating : current.distributor.router = .interrogate router) :
    router.oldWorkerSet = rescale.buildSet thisWorker ∧
      router.newWorkerSet = rescale.new :=
  have fixed := shape.interrogating_handover interrogating
  ⟨congrArg Handover.oldWorkerSet fixed, congrArg Handover.newWorkerSet fixed⟩

omit [DecidableEq K] [MaybeTime T] in
theorem Shape.finished_sets {thisWorker : WorkerId}
    {current : Worker K V T VO S L} {router : FinishedRouter}
    (shape : rescale.Shape job.partitioner thisWorker current)
    (finished : current.distributor.router = .finished router) :
    router.oldWorkerSet = rescale.buildSet thisWorker ∧
      router.newWorkerSet = rescale.new :=
  have fixed := shape.finished_handover finished
  ⟨congrArg Handover.oldWorkerSet fixed, congrArg Handover.newWorkerSet fixed⟩

omit [DecidableEq K] [MaybeTime T] in
theorem built_of_settles {thisWorker : WorkerId}
    {current : Worker K V T VO S L} {router : InterrogateRouter K} {key : K}
    (shape : rescale.Shape job.partitioner thisWorker current)
    (interrogating : current.distributor.router = .interrogate router) :
    rescale.Settles job.partitioner key current.distributor.router ↔
      job.partitioner key (rescale.buildSet thisWorker) =
        job.partitioner key rescale.new := by
  rw [interrogating, Settles, (shape.interrogating_sets interrogating).1]

omit [MaybeTime T] in
theorem settles_of_routed {thisWorker : WorkerId} {remotes : Remotes T}
    {arrival : Arrival K V T} {router router' : MessageRouter K V T}
    {target : Option WorkerId} {key : K}
    (settles : rescale.Settles job.partitioner key router)
    (routed : Routed job.partitioner thisWorker remotes arrival router router'
      target) : rescale.Settles job.partitioner key router' := by
  cases routed with
  | ahead _ _ => exact settles
  | ruled _ rule => cases rule <;> exact settles

omit [MaybeTime T] in
theorem settles_takeReport {distributor : Distributor K V T} {key : K}
    (settles : rescale.Settles job.partitioner key distributor.router)
    (report : Report K S) :
    rescale.Settles job.partitioner key
      (distributor.takeReport report).router := by
  cases isRouter : distributor.router with
  | collect router =>
      obtain ⟨next, isNext, -⟩ := distributor.takeReport_collect report isRouter
      rw [isRouter] at settles
      rw [isNext]
      intro collects
      rw [← isNext] at collects
      rcases takeReport_collects collects with before | ⟨_, _, other, _⟩
      · rw [isRouter] at before
        exact settles before
      · simp [isRouter] at other
  | normal | interrogate | finished =>
      rw [isRouter] at settles
      cases report <;> simp only [Distributor.takeReport, isRouter] <;>
        exact settles

section

variable {thisWorker : WorkerId} {current next : Worker K V T VO S L}
  {incoming : Option (WorkerId × NetworkMessage K V T)}
  {received : List (Message K V T)} {operated : Option (Message K V T)}
  {key : K}

theorem settles_of_move
    (tidy : rescale.Tidy job.partitioner thisWorker current.distributor.router)
    (shape : rescale.Shape job.partitioner thisWorker current)
    (settles : rescale.Settles job.partitioner key current.distributor.router)
    (move : Move job thisWorker current incoming received operated next
      outgoing) :
    rescale.Settles job.partitioner key next.distributor.router := by
  cases move with
  | quiet sameRouter _ _ _ _ _ =>
      simpa only [Worker.after, sameRouter] using settles
  | kept _ routed | buffered _ routed | forwarded _ routed _ _ =>
      exact settles_of_routed settles routed
  | acquire | upgrade | ackUpgrade | rescaleCopy | scheduled | sink =>
      exact settles
  | rescale waiting =>
      rw [waiting] at settles
      exact settles
  | interrogated interrogating _ =>
      rw [interrogating] at tidy
      rintro (listed | ⟨_, current, _⟩)
      · exact tidy.leaves key listed
          ((built_of_settles shape interrogating).mp settles)
      · cases current
  | collectNext collecting release next =>
      rw [collecting] at settles
      have members := (IndexSet.pop_eq_some next).1
      rw [release.fixed.2.1] at members
      rintro (listed | ⟨collect, isCurrent, isKey⟩)
      · exact settles (.inl ((members key).mpr (.inl listed)))
      · refine settles (.inl ((members key).mpr (.inr ?_)))
        rw [← isKey, ← Option.some.inj isCurrent]
        rfl
  | concluded => trivial
  | finished finished _ =>
      exact congrArg (job.partitioner key) (shape.finished_sets finished).2
  | @received _ _ _ _ _ report _ _ reports =>
      rw [reports]
      exact settles_takeReport settles report

end

section

variable {thisWorker : WorkerId} {current next : Worker K V T VO S L}
  {incoming : Option (WorkerId × NetworkMessage K V T)}
  {received : List (Message K V T)} {operated : Option (Message K V T)}
  {target : WorkerId} {message : NetworkDataMessage K V T}

/-- Where a record is on its way to, by the version it bears. -/
def Addressed (rescale : Rescale) (partitioner : WorkerPartitioner K) (key : K)
    (source target : WorkerId) (version : Version) : Prop :=
  (version = rescale.buildVersion source ∧
    target = partitioner key (rescale.buildSet source)) ∨
  version = rescale.version ∧
    (target = partitioner key rescale.new ∨
      source = partitioner key rescale.new ∧
        target = partitioner key (rescale.buildSet source))

omit [MaybeTime T] in
theorem addressed_of_routed {arrival : Arrival K V T}
    {router : MessageRouter K V T}
    (shape : rescale.Shape job.partitioner thisWorker current)
    (routed : Routed job.partitioner thisWorker current.distributor.remotes
      arrival current.distributor.router router (some target))
    (other : target ≠ thisWorker) :
    rescale.Addressed job.partitioner arrival.message.key thisWorker target
      router.version := by
  rw [version_of_routed routed]
  rcases (shape.course routed).onward other with
    ⟨isOwner, isVersion⟩ | ⟨isFormer, isVersion⟩ |
      ⟨isFormer, isVersion, owner, -⟩
  · exact .inr ⟨isVersion, .inl isOwner⟩
  · exact .inl ⟨isVersion, isFormer⟩
  · exact .inr ⟨isVersion, .inr ⟨owner, isFormer⟩⟩

omit [DecidableEq K] [MaybeTime T] in
theorem mem_released {router released : CollectRouter K V T}
    {network : List (WorkerId × NetworkMessage K V T)}
    (tidy : rescale.Tidy job.partitioner thisWorker current.distributor.router)
    (shape : rescale.Shape job.partitioner thisWorker current)
    (collecting : current.distributor.router = .collect router)
    (release : Released job.partitioner current.distributor.remotes
      current.clones router released network)
    (member : (target, .data message) ∈ network) :
    message.content ∈ router.buffered ∧ message.version = rescale.version ∧
      target = job.partitioner message.content.key rescale.new ∧
      router.currentKey = some message.content.key := by
  have isVersion := (shape.collecting_clients collecting).1
  have new := (shape.collecting_sets collecting).2
  have bundled := tidy.bundled
  rw [collecting] at bundled
  cases release with
  | idle => cases member
  | @released collect _ isCurrent _ =>
      simp only [List.mem_cons, List.mem_map, Prod.mk.injEq, reduceCtorEq,
        and_false, false_or, NetworkMessage.data.injEq] at member
      obtain ⟨record, isHeld, rfl, rfl⟩ := member
      have key := bundled record isHeld
      have isKey : collect.key = record.key := by
        simpa [MessageRouter.currentKey, CollectRouter.currentKey, isCurrent]
          using key
      refine ⟨isHeld, isVersion, ?_, key⟩
      rw [isKey, new]

theorem addressed_of_move
    (tidy : rescale.Tidy job.partitioner thisWorker current.distributor.router)
    (shape : rescale.Shape job.partitioner thisWorker current)
    (move : Move job thisWorker current incoming received operated next
      outgoing)
    (member : (target, .data message) ∈ outgoing) :
    rescale.Addressed job.partitioner message.content.key thisWorker target
      message.version := by
  cases move with
  | quiet _ _ _ quietNetwork _ _ =>
      have quiet := quietNetwork _ member
      simp [NetworkMessage.isQuiet] at quiet
  | forwarded _ routed other _ =>
      obtain ⟨rfl, isMessage⟩ := Prod.mk.inj (List.mem_singleton.mp member)
      cases isMessage
      exact addressed_of_routed shape routed other
  | collectNext collecting release _ =>
      obtain ⟨-, isVersion, isOwner, -⟩ :=
        mem_released tidy shape collecting release member
      exact .inr ⟨isVersion, .inl isOwner⟩
  | concluded collecting release _ =>
      rcases List.mem_append.mp member with flushed | announced
      · obtain ⟨-, isVersion, isOwner, -⟩ :=
          mem_released tidy shape collecting release flushed
        exact .inr ⟨isVersion, .inl isOwner⟩
      · simp [broadcast] at announced
  | _ => simp at member

omit [MaybeTime T] in
theorem settles_of_forwarded {arrival : Arrival K V T}
    {router : MessageRouter K V T}
    (shape : rescale.Shape job.partitioner thisWorker current)
    (routed : Routed job.partitioner thisWorker current.distributor.remotes
      arrival current.distributor.router router (some target))
    (other : target ≠ thisWorker)
    (owner : target = job.partitioner arrival.message.key rescale.new) :
    rescale.Settles job.partitioner arrival.message.key router := by
  refine settles_of_routed ?_ routed
  cases shape.course routed with
  | ahead | listed | uncollected | collectOwned | finishedOwned =>
      exact absurd rfl other
  | waiting phase _ =>
      rw [phase]
      exact owner
  | interrogating interrogating _ _ =>
      exact (built_of_settles shape interrogating).mpr owner
  | collected collecting _ _ unlisted idle =>
      rw [collecting]
      rintro (listed | ⟨collect, isCurrent, isKey⟩)
      · exact unlisted listed
      · simp [CollectRouter.isCollecting, isCurrent, isKey] at idle
  | collectOld _ _ newHere _ => exact absurd (owner.trans newHere) other
  | finishedAway finished _ _ | finishedOld finished _ _ _ _ _ =>
      rw [finished]
      trivial
  | upgraded phase _ =>
      rw [phase]
      rfl

/-- Who sends a record to the new owner will send all records of the key
there. -/
theorem settles_of_sent
    (tidy : rescale.Tidy job.partitioner thisWorker current.distributor.router)
    (shape : rescale.Shape job.partitioner thisWorker current)
    (move : Move job thisWorker current incoming received operated next
      outgoing)
    (member : (target, .data message) ∈ outgoing)
    (owner : target = job.partitioner message.content.key rescale.new) :
    rescale.Settles job.partitioner message.content.key
      next.distributor.router := by
  cases move with
  | quiet _ _ _ quietNetwork _ _ =>
      have quiet := quietNetwork _ member
      simp [NetworkMessage.isQuiet] at quiet
  | forwarded _ routed other _ =>
      obtain ⟨rfl, isMessage⟩ := Prod.mk.inj (List.mem_singleton.mp member)
      cases isMessage
      exact settles_of_forwarded shape routed other owner
  | collectNext collecting release next =>
      obtain ⟨-, -, -, isCurrent⟩ :=
        mem_released tidy shape collecting release member
      have unlisted := tidy.unlisted _ collecting _ isCurrent
      have members := (IndexSet.pop_eq_some next).1
      rw [release.fixed.2.1] at members
      rintro (listed | ⟨collect, isNext, isKey⟩)
      · exact unlisted ((members _).mpr (.inl listed))
      · refine unlisted ((members _).mpr (.inr ?_))
        rw [← isKey, ← Option.some.inj isNext]
        rfl
  | concluded => trivial
  | _ => simp at member

omit [DecidableEq K] [MaybeTime T] in
theorem buildVersion_le (base : rescale.base ≤ rescale.version)
    (source : WorkerId) : rescale.buildVersion source ≤ rescale.version := by
  unfold buildVersion
  split
  · exact base
  · exact Nat.zero_le _

omit [DecidableEq K] [MaybeTime T] in
theorem Addressed.version_le {source : WorkerId} {key : K} {version : Version}
    (base : rescale.base ≤ rescale.version)
    (addressed : rescale.Addressed job.partitioner key source target version) :
    version ≤ rescale.version := by
  rcases addressed with ⟨rfl, -⟩ | ⟨rfl, -⟩
  · exact buildVersion_le base source
  · exact le_rfl

omit [DecidableEq K] [MaybeTime T] in
/-- A record which comes to a worker that was built to send its key to the new
owner is not ahead of that worker. -/
theorem not_ahead_of_built {source : WorkerId} {key : K} {version : Version}
    (selects : Selects job.partitioner)
    (away : job.partitioner key rescale.new ≠ thisWorker)
    (built : job.partitioner key (rescale.buildSet thisWorker) =
      job.partitioner key rescale.new)
    (addressed : rescale.Addressed job.partitioner key source thisWorker
      version) : version ≤ rescale.buildVersion thisWorker := by
  rcases addressed with ⟨rfl, isTarget⟩ |
    ⟨-, isOwner | ⟨rfl, isTarget⟩⟩
  · by_cases old : source ∈ rescale.old
    · rw [(buildSet_of_old old).1] at isTarget
      have member : thisWorker ∈ rescale.old := by
        rw [isTarget]
        exact selects key rescale.old (List.ne_nil_of_mem old)
      rw [(buildSet_of_old old).2, (buildSet_of_old member).2]
    · rw [buildVersion, if_neg old]
      exact Nat.zero_le _
  · exact absurd isOwner.symm away
  · by_cases ownerOld : job.partitioner key rescale.new ∈ rescale.old
    · rw [(buildSet_of_old ownerOld).1] at isTarget
      have member : thisWorker ∈ rescale.old := by
        rw [isTarget]
        exact selects key rescale.old (List.ne_nil_of_mem ownerOld)
      rw [(buildSet_of_old member).1, ← isTarget] at built
      exact absurd built.symm away
    · rw [buildSet, if_neg ownerOld] at isTarget
      by_cases member : thisWorker ∈ rescale.old
      · rw [(buildSet_of_old member).1] at built
        refine absurd ?_ ownerOld
        rw [← built]
        exact selects key rescale.old (List.ne_nil_of_mem member)
      · rw [buildSet, if_neg member, ← isTarget] at built
        exact absurd built.symm away

omit [DecidableEq K] [MaybeTime T] in
/-- A worker which sends the records of a key to the new owner takes none for
ahead. -/
theorem not_ahead {source : WorkerId} {key : K} {version : Version}
    (selects : Selects job.partitioner)
    (base : rescale.base ≤ rescale.version)
    (away : job.partitioner key rescale.new ≠ thisWorker)
    (shape : rescale.Shape job.partitioner thisWorker current)
    (settles : rescale.Settles job.partitioner key current.distributor.router)
    (addressed : rescale.Addressed job.partitioner key source thisWorker
      version) : version ≤ current.distributor.router.version := by
  have atMost := addressed.version_le base
  cases isRouter : current.distributor.router with
  | normal router =>
      cases shape with
      | waiting phase _ _ =>
          rw [isRouter] at phase settles
          obtain rfl := Phase.normal.inj phase
          exact not_ahead_of_built selects away settles addressed
      | upgraded phase _ _ =>
          rw [isRouter] at phase
          obtain rfl := Phase.normal.inj phase
          exact atMost
      | interrogating phase _ _ | collecting phase _ _ | finished phase _ _ =>
          simp [isRouter, MessageRouter.phase] at phase
  | interrogate router =>
      have isVersion : router.version = rescale.buildVersion thisWorker :=
        congrArg Handover.version (shape.interrogating_handover isRouter)
      rw [MessageRouter.version, isVersion]
      exact not_ahead_of_built selects away
        ((built_of_settles shape isRouter).mp settles) addressed
  | collect router =>
      have isVersion : router.version = rescale.version :=
        congrArg Handover.version (shape.collecting_handover isRouter).1
      rw [MessageRouter.version, isVersion]
      exact atMost
  | finished router =>
      have isVersion : router.version = rescale.version :=
        congrArg Handover.version (shape.finished_handover isRouter)
      rw [MessageRouter.version, isVersion]
      exact atMost

end

end

end Rescale

end Malstrom.Keyed
