import Malstrom.Sources.Stateful

namespace Malstrom.Sources

open Data

variable {Part V T S P : Type} [DecidableEq Part]

/-! The partition operators of all workers, the finished partitions they tell
each other and the rescales which reach them. -/

structure Cluster (Part T P : Type) where
  operator : WorkerId → Option (PartitionOp Part T P)
  links : Links WorkerId Part
  /-- The rescales a worker has still to handle, in order. -/
  rescales : WorkerId → List RescaleMessage
  /-- The worker set last asked for. -/
  active : IndexSet WorkerId

inductive Cluster.Event (Part : Type) where
  | schedule (worker : WorkerId)
  | receive (worker : WorkerId) (message : Message Part Unit NoTime)
  | reconfigure (rescale : RescaleMessage)

namespace StatefulSource

variable (source : StatefulSource Part V T S P)

def start (workers : IndexSet WorkerId)
    (restored : WorkerId → Option (IndexMap Part S)) : Cluster Part T P :=
  { operator := fun worker =>
      if worker ∈ workers then
        some (source.new worker workers (restored worker))
      else none
    links := fun _ _ => []
    rescales := fun _ => []
    active := workers }

omit [DecidableEq Part] in
def receiveAll (links : Links WorkerId Part) (clients : IndexSet WorkerId)
    (worker : WorkerId) : Links WorkerId Part :=
  fun sender receiver =>
    if receiver = worker ∧ sender ∈ clients then
      (links sender receiver).tail
    else links sender receiver

/-- The workers a rescale adds are built with all workers before and after it,
and every worker gets the rescale. -/
def reconfigure (cluster : Cluster Part T P) (rescale : RescaleMessage) :
    Cluster Part T P :=
  let allWorkers := cluster.active.union rescale.workers
  { cluster with
    operator := fun worker =>
      if worker ∈ rescale.workers ∧ worker ∉ cluster.active then
        some (source.new worker allWorkers none)
      else cluster.operator worker
    rescales := fun worker =>
      if worker ∈ cluster.active then cluster.rescales worker ++ [rescale]
      else if worker ∈ rescale.workers then [rescale]
      else cluster.rescales worker
    active := rescale.workers }

def step (cluster : Cluster Part T P) :
    Cluster.Event Part → Except SourcePanic (Cluster Part T P)
  | .schedule worker =>
      match cluster.operator worker with
      | none => .ok cluster
      | some op =>
          match source.onSchedule op
            (fun client => cluster.links client worker) with
          | .error panic => .error panic
          | .ok (next, effects) =>
              .ok { cluster with
                operator := Function.update cluster.operator worker (some next)
                links := (receiveAll cluster.links op.commClients worker).sendAll
                  worker (effects.finished.flatMap fun part =>
                    op.commClients.items.map fun client => (client, part)) }
  | .receive worker message =>
      match cluster.operator worker with
      | none => .ok cluster
      | some op =>
          .ok { cluster with
            operator := Function.update cluster.operator worker
              (some (source.receive op message worker).1)
            rescales := match message.rescale? with
              | some _ => Function.update cluster.rescales worker
                  (cluster.rescales worker).tail
              | none => cluster.rescales }
  | .reconfigure rescale => .ok (source.reconfigure cluster rescale)

end StatefulSource

namespace Cluster

/-- Only workers which were built run, and rescales reach them in order. -/
def allowed (cluster : Cluster Part T P) : Event Part → Prop
  | .schedule worker => cluster.operator worker ≠ none
  | .receive worker message => cluster.operator worker ≠ none ∧
      ∀ rescale ∈ message.rescale?,
        (cluster.rescales worker).head? = some rescale
  | .reconfigure _ => True

/-- Rescales only remove workers. -/
def removes (cluster : Cluster Part T P) : Event Part → Prop
  | .reconfigure rescale =>
      ∀ worker ∈ rescale.workers, worker ∈ cluster.active
  | .schedule _ | .receive _ _ => True

omit [DecidableEq Part] in
instance (cluster : Cluster Part T P) :
    (event : Event Part) → Decidable (cluster.allowed event)
  | .schedule worker =>
      inferInstanceAs (Decidable ¬cluster.operator worker = none)
  | .receive worker message =>
      inferInstanceAs (Decidable (¬cluster.operator worker = none ∧
        ∀ rescale ∈ message.rescale?,
          (cluster.rescales worker).head? = some rescale))
  | .reconfigure _ => isTrue trivial

instance (cluster : Cluster Part T P) :
    (event : Event Part) → Decidable (cluster.removes event)
  | .reconfigure rescale => inferInstanceAs (Decidable
      (∀ worker ∈ rescale.workers.items, worker ∈ cluster.active))
  | .schedule _ | .receive _ _ => isTrue trivial

def knows (cluster : Cluster Part T P) (worker : WorkerId) (part : Part) :
    Prop :=
  ∃ op, cluster.operator worker = some op ∧
    op.allPartitions.get? part = some true

end Cluster

/-! What a schedule marks. -/

/-- Of the listed partitions exactly the given ones become finished. -/
structure Marks (before after : IndexMap Part Bool) (parts : List Part) :
    Prop where
  listed : ∀ part, part ∈ after ↔ part ∈ before
  marked : ∀ part, after.get? part = some true ↔
    before.get? part = some true ∨ part ∈ parts

theorem Marks.refl (allPartitions : IndexMap Part Bool) :
    Marks allPartitions allPartitions [] :=
  ⟨fun _ => Iff.rfl, fun _ => by simp⟩

theorem Marks.cons {before after : IndexMap Part Bool} {part : Part}
    {parts : List Part} (isListed : part ∈ before)
    (marks : Marks (before.insert part true) after parts) :
    Marks before after (part :: parts) := by
  constructor
  · intro other
    rw [marks.listed, IndexMap.mem_insert]
    constructor
    · rintro (held | rfl)
      · exact held
      · exact isListed
    · exact .inl
  · intro other
    rw [marks.marked, IndexMap.get?_insert, List.mem_cons]
    split
    next same => simp [same]
    next different => simp [different]

theorem Marks.trans {before between after : IndexMap Part Bool}
    {first second : List Part} (marksFirst : Marks before between first)
    (marksSecond : Marks between after second) :
    Marks before after (first ++ second) := by
  constructor
  · intro part
    rw [marksSecond.listed, marksFirst.listed]
  · intro part
    rw [marksSecond.marked, marksFirst.marked, List.mem_append, or_assoc]

theorem markFinished_marks {parts : List Part}
    {allPartitions marked : IndexMap Part Bool}
    (marks : StatefulSource.markFinished parts allPartitions = .ok marked) :
    Marks allPartitions marked parts := by
  induction parts generalizing allPartitions with
  | nil =>
      obtain rfl : allPartitions = marked := by
        simpa [StatefulSource.markFinished] using marks
      exact .refl allPartitions
  | cons part rest ih =>
      simp only [StatefulSource.markFinished] at marks
      cases found : allPartitions.get? part with
      | none => simp [found] at marks
      | some partState =>
          simp only [found] at marks
          exact .cons (IndexMap.mem_of_get?_eq_some found) (ih marks)

variable {source : StatefulSource Part V T S P}

theorem pollPartitions_marks {entries : List (Part × P)}
    {allPartitions marked : IndexMap Part Bool}
    {output : List (Message Part V T)} {finished : List Part}
    (polled : source.pollPartitions entries allPartitions =
      .ok (marked, output, finished)) :
    Marks allPartitions marked finished := by
  induction entries generalizing allPartitions output finished with
  | nil =>
      simp only [StatefulSource.pollPartitions, Except.ok.injEq,
        Prod.mk.injEq] at polled
      obtain ⟨rfl, rfl, rfl⟩ := polled
      exact .refl allPartitions
  | cons entry rest ih =>
      obtain ⟨part, partition⟩ := entry
      simp only [StatefulSource.pollPartitions] at polled
      cases found : allPartitions.get? part with
      | none => simp [found] at polled
      | some partState =>
          simp only [found] at polled
          split at polled
          next => simp at polled
          next isPolled =>
            simp only [Except.ok.injEq, Prod.mk.injEq] at polled
            obtain ⟨rfl, -, rfl⟩ := polled
            have marks := ih isPolled
            split
            next isFinished =>
              rw [if_pos isFinished] at marks
              exact .cons (IndexMap.mem_of_get?_eq_some found) marks
            next running =>
              rw [if_neg running] at marks
              exact marks

/-- A schedule marks what the worker has seen finished and what it is told. -/
theorem onSchedule_marks {op next : PartitionOp Part T P}
    {incoming : WorkerId → List Part} {effects : SourceEffects Part V T S}
    (scheduled : source.onSchedule op incoming = .ok (next, effects)) :
    Marks op.allPartitions next.allPartitions
        (effects.finished ++ StatefulSource.heard op incoming) ∧
      next.commClients = op.commClients ∧
      (next.allPartitions.values.all id = true →
        ∀ time ∈ op.maxT, .epoch time ∈ effects.output) := by
  simp only [StatefulSource.onSchedule] at scheduled
  split at scheduled
  next => simp at scheduled
  next polled =>
    split at scheduled
    next => simp at scheduled
    next marks =>
      simp only [Except.ok.injEq, Prod.mk.injEq] at scheduled
      obtain ⟨rfl, rfl⟩ := scheduled
      refine ⟨(pollPartitions_marks polled).trans (markFinished_marks marks),
        rfl, fun done time isMax => ?_⟩
      simp only [done, if_true]
      exact List.mem_append_right _ (by simpa using isMax)

theorem receive_allPartitions (op : PartitionOp Part T P)
    (message : Message Part Unit NoTime) (worker : WorkerId) :
    (source.receive op message worker).1.allPartitions =
      op.allPartitions := by
  cases message with
  | data record =>
      simp only [StatefulSource.receive, StatefulSource.onData]
      split <;> rfl
  | collect key =>
      simp only [StatefulSource.receive]
      split <;> rfl
  | _ => rfl

theorem receive_commClients (op : PartitionOp Part T P)
    {message : Message Part Unit NoTime} (worker : WorkerId)
    (noRescale : message.rescale? = none) :
    (source.receive op message worker).1.commClients = op.commClients := by
  cases message with
  | data record =>
      simp only [StatefulSource.receive, StatefulSource.onData]
      split <;> rfl
  | collect key =>
      simp only [StatefulSource.receive]
      split <;> rfl
  | rescale rescale => simp [Message.rescale?] at noRescale
  | _ => rfl

/-! The clients after a rescale: a new worker becomes one only if its id is the
bitwise negation of this worker's. -/

theorem negate_ne (worker : WorkerId) : negate worker ≠ worker := by
  intro same
  have : (2 ^ 64 - 1 - worker : Nat) = worker := same
  omega

omit [DecidableEq Part] in
theorem mem_onRescale {op : PartitionOp Part T P} {rescale : RescaleMessage}
    {thisWorker worker : WorkerId} :
    worker ∈ (StatefulSource.onRescale op rescale thisWorker).commClients ↔
      worker ∈ rescale.workers ∧
        (worker ∈ op.commClients ∨ negate worker = thisWorker) := by
  have inserted : ∀ (workers : List WorkerId) (clients : IndexSet WorkerId),
      worker ∈ workers.foldl (fun clients worker =>
        if worker ∉ clients ∧ negate worker = thisWorker then
          clients.insert worker
        else clients) clients ↔
      worker ∈ clients ∨ worker ∈ workers ∧ negate worker = thisWorker := by
    intro workers
    induction workers with
    | nil => simp
    | cons head rest ih =>
        intro clients
        rw [List.foldl_cons, ih]
        split
        next isNew => grind [IndexSet.mem_insert]
        next kept => grind
  simp only [StatefulSource.onRescale, inserted, IndexSet.mem_retain,
    decide_eq_true_eq]
  have : worker ∈ rescale.workers.items ↔ worker ∈ rescale.workers := Iff.rfl
  tauto

omit [DecidableEq Part] in
/-- The clients are the other workers exactly when no other worker is new, or
its id is the negation of this worker's. -/
theorem onRescale_clients {op : PartitionOp Part T P}
    {rescale : RescaleMessage} {thisWorker : WorkerId}
    (notSelf : thisWorker ∉ op.commClients) :
    (∀ worker,
      worker ∈ (StatefulSource.onRescale op rescale thisWorker).commClients ↔
        worker ∈ rescale.workers ∧ worker ≠ thisWorker) ↔
      ∀ worker ∈ rescale.workers, worker ≠ thisWorker →
        worker ∈ op.commClients ∨ negate worker = thisWorker := by
  simp only [mem_onRescale]
  constructor
  · intro clients worker member other
    exact ((clients worker).mpr ⟨member, other⟩).2
  · intro known worker
    constructor
    · rintro ⟨member, held⟩
      refine ⟨member, ?_⟩
      rintro rfl
      cases held with
      | inl held => exact notSelf held
      | inr negated => exact negate_ne worker negated
    · rintro ⟨member, other⟩
      exact ⟨member, known worker member other⟩

/-! While workers are only removed every active worker is a client of every
other. -/

structure Cluster.Manned (listParts : List Part) (cluster : Cluster Part T P) :
    Prop where
  listed : ∀ worker op, cluster.operator worker = some op →
    ∀ part, part ∈ op.allPartitions ↔ part ∈ listParts
  built : ∀ worker ∈ cluster.active, ∃ op, cluster.operator worker = some op
  notSelf : ∀ worker op, cluster.operator worker = some op →
    worker ∉ op.commClients
  clients : ∀ worker op, cluster.operator worker = some op →
    ∀ other ∈ cluster.active, other ≠ worker → other ∈ op.commClients
  upcoming : ∀ worker op, cluster.operator worker = some op →
    ∀ rescale ∈ cluster.rescales worker, ∀ other ∈ rescale.workers,
      other ≠ worker → other ∈ op.commClients
  descends : ∀ worker, (cluster.rescales worker).Pairwise
    fun earlier later => ∀ other ∈ later.workers, other ∈ earlier.workers
  latest : ∀ worker, ∀ rescale ∈ cluster.rescales worker,
    ∀ other ∈ cluster.active, other ∈ rescale.workers

omit [DecidableEq Part] in
theorem Cluster.Manned.update {listParts : List Part}
    {cluster : Cluster Part T P} (manned : cluster.Manned listParts)
    {worker : WorkerId} {op after : PartitionOp Part T P}
    (isOp : cluster.operator worker = some op)
    (sameClients : after.commClients = op.commClients)
    (sameKeys : ∀ part, part ∈ after.allPartitions ↔ part ∈ op.allPartitions)
    (links : Links WorkerId Part) :
    Cluster.Manned listParts { cluster with
      operator := Function.update cluster.operator worker (some after)
      links := links } := by
  have before : ∀ other found, Function.update cluster.operator worker
      (some after) other = some found →
      ∃ earlier, cluster.operator other = some earlier ∧
        found.commClients = earlier.commClients ∧
        ∀ part, part ∈ found.allPartitions ↔ part ∈ earlier.allPartitions := by
    intro other found isFound
    rw [Function.update_apply] at isFound
    split at isFound
    next same =>
      obtain rfl := Option.some.inj isFound
      exact ⟨op, same ▸ isOp, sameClients, sameKeys⟩
    next => exact ⟨found, isFound, rfl, fun _ => Iff.rfl⟩
  refine ⟨?_, ?_, ?_, ?_, ?_, manned.descends, manned.latest⟩
  · intro other found isFound part
    obtain ⟨earlier, isEarlier, -, keys⟩ := before other found isFound
    rw [keys]
    exact manned.listed other earlier isEarlier part
  · intro other isActive
    by_cases same : other = worker
    · exact ⟨after, by simp [same]⟩
    · simpa [same] using manned.built other isActive
  · intro other found isFound
    obtain ⟨earlier, isEarlier, same, -⟩ := before other found isFound
    rw [same]
    exact manned.notSelf other earlier isEarlier
  · intro other found isFound
    obtain ⟨earlier, isEarlier, same, -⟩ := before other found isFound
    rw [same]
    exact manned.clients other earlier isEarlier
  · intro other found isFound
    obtain ⟨earlier, isEarlier, same, -⟩ := before other found isFound
    rw [same]
    exact manned.upcoming other earlier isEarlier

omit [DecidableEq Part] in
theorem Cluster.Manned.rescale {listParts : List Part}
    {cluster : Cluster Part T P} (manned : cluster.Manned listParts)
    {worker : WorkerId} {op : PartitionOp Part T P}
    (isOp : cluster.operator worker = some op) {rescale : RescaleMessage}
    (isNext : (cluster.rescales worker).head? = some rescale) :
    (∀ other, other ∈
      (StatefulSource.onRescale op rescale worker).commClients ↔
        other ∈ rescale.workers ∧ other ≠ worker) ∧
    Cluster.Manned listParts { cluster with
      operator := Function.update cluster.operator worker
        (some (StatefulSource.onRescale op rescale worker))
      rescales := Function.update cluster.rescales worker
        (cluster.rescales worker).tail } := by
  obtain ⟨rest, queue⟩ := List.head?_eq_some_iff.mp isNext
  have clients := (onRescale_clients (manned.notSelf worker op isOp)).mpr
    fun other member isOther => .inl (manned.upcoming worker op isOp rescale
      (by simp [queue]) other member isOther)
  have member : rescale ∈ cluster.rescales worker := by simp [queue]
  have descends := manned.descends worker
  rw [queue, List.pairwise_cons] at descends
  refine ⟨clients, ?_, ?_, ?_, ?_, ?_, ?_, ?_⟩
  · intro other found isFound part
    simp only [Function.update_apply] at isFound
    split at isFound
    next same =>
      obtain rfl := Option.some.inj isFound
      exact manned.listed worker op isOp part
    next => exact manned.listed other found isFound part
  · intro other isActive
    by_cases same : other = worker
    · exact ⟨StatefulSource.onRescale op rescale worker, by simp [same]⟩
    · simpa [same] using manned.built other isActive
  · intro other found isFound
    simp only [Function.update_apply] at isFound
    split at isFound
    next same =>
      obtain rfl := Option.some.inj isFound
      exact fun isClient => ((clients other).mp isClient).2 same
    next => exact manned.notSelf other found isFound
  · intro other found isFound
    simp only [Function.update_apply] at isFound
    split at isFound
    next same =>
      obtain rfl := Option.some.inj isFound
      intro client isActive isOther
      exact (clients client).mpr ⟨manned.latest worker rescale member client
        isActive, same ▸ isOther⟩
    next => exact manned.clients other found isFound
  · intro other found isFound later isLater
    simp only [Function.update_apply] at isFound isLater
    split at isFound
    next same =>
      obtain rfl := Option.some.inj isFound
      intro client isMember isOther
      rw [if_pos same, queue] at isLater
      exact (clients client).mpr
        ⟨descends.1 later isLater client isMember, same ▸ isOther⟩
    next different =>
      rw [if_neg different] at isLater
      exact manned.upcoming other found isFound later isLater
  · intro other
    simp only [Function.update_apply]
    split
    next => simpa [queue] using descends.2
    next => exact manned.descends other
  · intro other later isLater
    simp only [Function.update_apply] at isLater
    split at isLater
    next same =>
      exact same ▸ manned.latest worker later (List.mem_of_mem_tail isLater)
    next => exact manned.latest other later isLater

theorem Cluster.Manned.reconfigure {listParts : List Part}
    {cluster : Cluster Part T P} (manned : cluster.Manned listParts)
    {rescale : RescaleMessage}
    (removes : cluster.removes (.reconfigure rescale)) :
    (source.reconfigure cluster rescale).operator = cluster.operator ∧
      (source.reconfigure cluster rescale).Manned listParts := by
  have same : (source.reconfigure cluster rescale).operator =
      cluster.operator := by
    funext worker
    exact if_neg fun added => added.2 (removes worker added.1)
  have queue : ∀ worker, ∀ later ∈
      (source.reconfigure cluster rescale).rescales worker,
      later ∈ cluster.rescales worker ∨ later = rescale := by
    intro worker later isLater
    simp only [StatefulSource.reconfigure] at isLater
    split at isLater
    next => simpa using isLater
    next =>
      split at isLater
      next => exact .inr (by simpa using isLater)
      next => exact .inl isLater
  refine ⟨same, ?_, ?_, ?_, ?_, ?_, ?_, ?_⟩
  · rw [same]
    exact manned.listed
  · intro worker isActive
    rw [same]
    exact manned.built worker (removes worker isActive)
  · rw [same]
    exact manned.notSelf
  · intro worker op isOp other isActive
    rw [same] at isOp
    exact manned.clients worker op isOp other (removes other isActive)
  · intro worker op isOp later isLater other isMember isOther
    rw [same] at isOp
    cases queue worker later isLater with
    | inl earlier =>
        exact manned.upcoming worker op isOp later earlier other isMember
          isOther
    | inr isNew =>
        subst isNew
        exact manned.clients worker op isOp other (removes other isMember)
          isOther
  · intro worker
    simp only [StatefulSource.reconfigure]
    split
    next =>
      refine List.pairwise_append.mpr ⟨manned.descends worker,
        List.pairwise_singleton _ _, ?_⟩
      intro earlier isEarlier later isNew other isMember
      obtain rfl := List.mem_singleton.mp isNew
      exact manned.latest worker earlier isEarlier other
        (removes other isMember)
    next =>
      split
      next => exact List.pairwise_singleton _ _
      next => exact manned.descends worker
  · intro worker later isLater other isActive
    cases queue worker later isLater with
    | inl earlier =>
        exact manned.latest worker later earlier other (removes other isActive)
    | inr isNew => exact isNew ▸ isActive

/-! Who knows that a partition is finished tells all others. -/

structure Cluster.Informed (cluster : Cluster Part T P) : Prop where
  honest : ∀ sender receiver part, part ∈ cluster.links sender receiver →
    cluster.knows sender part
  told : ∀ owner part, cluster.knows owner part →
    ∀ worker ∈ cluster.active, cluster.knows worker part ∨
      ∃ sender, part ∈ cluster.links sender worker

omit [DecidableEq Part] in
/-- A message to this worker is received or stays in its link. -/
theorem mem_receiveAll {links : Links WorkerId Part}
    {clients : IndexSet WorkerId} {worker sender receiver : WorkerId}
    {part : Part} (inFlight : part ∈ links sender receiver) :
    part ∈ StatefulSource.receiveAll links clients worker sender receiver ∨
      receiver = worker ∧ part ∈ clients.items.filterMap
        fun client => (links client worker).head? := by
  unfold StatefulSource.receiveAll
  split
  next received =>
    obtain ⟨rfl, isClient⟩ := received
    cases contents : links sender receiver with
    | nil => simp [contents] at inFlight
    | cons head rest =>
        rw [contents] at inFlight
        cases List.mem_cons.mp inFlight with
        | inl isHead =>
            refine .inr ⟨rfl, List.mem_filterMap.mpr ⟨sender, isClient, ?_⟩⟩
            rw [contents, isHead, List.head?_cons]
        | inr inTail => exact .inl inTail
  next => exact .inl inFlight

omit [DecidableEq Part] in
theorem of_mem_receiveAll {links : Links WorkerId Part}
    {clients : IndexSet WorkerId} {worker sender receiver : WorkerId}
    {part : Part} (inFlight : part ∈
      StatefulSource.receiveAll links clients worker sender receiver) :
    part ∈ links sender receiver := by
  unfold StatefulSource.receiveAll at inFlight
  split at inFlight
  next => exact List.mem_of_mem_tail inFlight
  next => exact inFlight

theorem knows_update {cluster : Cluster Part T P} {worker : WorkerId}
    {op after : PartitionOp Part T P}
    (isOp : cluster.operator worker = some op) {parts : List Part}
    (marks : Marks op.allPartitions after.allPartitions parts)
    {operator : WorkerId → Option (PartitionOp Part T P)}
    (updated : operator = Function.update cluster.operator worker (some after))
    (links : Links WorkerId Part) (other : WorkerId) (part : Part) :
    Cluster.knows { cluster with operator := operator, links := links } other
        part ↔
      cluster.knows other part ∨ other = worker ∧ part ∈ parts := by
  subst updated
  unfold Cluster.knows
  by_cases same : other = worker
  · subst same
    simp [isOp, marks.marked]
  · simp [same]

theorem Cluster.Informed.schedule {listParts : List Part}
    {cluster : Cluster Part T P} (informed : cluster.Informed)
    (manned : cluster.Manned listParts) {worker : WorkerId}
    {op after : PartitionOp Part T P}
    (isOp : cluster.operator worker = some op)
    {effects : SourceEffects Part V T S}
    (scheduled : source.onSchedule op
      (fun client => cluster.links client worker) = .ok (after, effects)) :
    Cluster.Informed { cluster with
      operator := Function.update cluster.operator worker (some after)
      links := (StatefulSource.receiveAll cluster.links op.commClients
        worker).sendAll worker (effects.finished.flatMap fun part =>
          op.commClients.items.map fun client => (client, part)) } := by
  obtain ⟨marks, sameClients, -⟩ := onSchedule_marks scheduled
  have knows := knows_update isOp marks rfl
    ((StatefulSource.receiveAll cluster.links op.commClients worker).sendAll
      worker (effects.finished.flatMap fun part =>
        op.commClients.items.map fun client => (client, part)))
  have inFlight : ∀ sender receiver part,
      part ∈ (StatefulSource.receiveAll cluster.links op.commClients
        worker).sendAll worker (effects.finished.flatMap fun part =>
          op.commClients.items.map fun client => (client, part))
          sender receiver ↔
        part ∈ StatefulSource.receiveAll cluster.links op.commClients worker
          sender receiver ∨
        sender = worker ∧ part ∈ effects.finished ∧
          receiver ∈ op.commClients := by
    intro sender receiver part
    rw [Links.sendAll_apply]
    split
    next same =>
      simp [same, Links.mem_addressedTo, IndexSet.mem_def, and_comm]
    next different => simp [different]
  constructor
  · intro sender receiver part flies
    rw [knows]
    cases (inFlight sender receiver part).mp flies with
    | inl earlier =>
        exact .inl (informed.honest sender receiver part
          (of_mem_receiveAll earlier))
    | inr sent =>
        exact .inr ⟨sent.1, List.mem_append_left _ sent.2.1⟩
  · intro owner part known other isActive
    rw [knows] at known ⊢
    simp only [inFlight]
    have relay : (∃ holder, cluster.knows holder part) →
        (cluster.knows other part ∨ other = worker ∧
          part ∈ effects.finished ++ StatefulSource.heard op
            fun client => cluster.links client worker) ∨
        ∃ sender, part ∈ StatefulSource.receiveAll cluster.links
            op.commClients worker sender other ∨
          sender = worker ∧ part ∈ effects.finished ∧
            other ∈ op.commClients := by
      rintro ⟨holder, holds⟩
      cases informed.told holder part holds other isActive with
      | inl already => exact .inl (.inl already)
      | inr flying =>
          obtain ⟨sender, flies⟩ := flying
          cases mem_receiveAll flies with
          | inl stays => exact .inr ⟨sender, .inl stays⟩
          | inr received =>
              exact .inl (.inr ⟨received.1,
                List.mem_append_right _ received.2⟩)
    cases known with
    | inl earlier => exact relay ⟨owner, earlier⟩
    | inr now =>
        cases List.mem_append.mp now.2 with
        | inl finished =>
            by_cases same : other = worker
            · exact .inl (.inr ⟨same, List.mem_append_left _ finished⟩)
            · exact .inr ⟨worker, .inr ⟨rfl, finished,
                manned.clients worker op isOp other isActive same⟩⟩
        | inr heard =>
            obtain ⟨client, isClient, isHead⟩ := List.mem_filterMap.mp heard
            exact relay ⟨client, informed.honest client worker part
              (List.mem_of_mem_head? isHead)⟩

theorem Cluster.Informed.step {listParts : List Part}
    {cluster next : Cluster Part T P} (informed : cluster.Informed)
    (manned : cluster.Manned listParts) {event : Cluster.Event Part}
    (allowed : cluster.allowed event) (removes : cluster.removes event)
    (stepped : source.step cluster event = .ok next) :
    next.Manned listParts ∧ next.Informed := by
  cases event with
  | schedule worker =>
      simp only [StatefulSource.step] at stepped
      cases isOp : cluster.operator worker with
      | none => exact absurd isOp allowed
      | some op =>
          cases scheduled : source.onSchedule op
            (fun client => cluster.links client worker) with
          | error panic => simp [isOp, scheduled] at stepped
          | ok result =>
              obtain ⟨after, effects⟩ := result
              obtain ⟨marks, sameClients, -⟩ := onSchedule_marks scheduled
              simp only [isOp, scheduled, Except.ok.injEq] at stepped
              subst stepped
              exact ⟨manned.update isOp sameClients marks.listed _,
                informed.schedule manned isOp scheduled⟩
  | receive worker message =>
      obtain ⟨isBuilt, isNext⟩ := allowed
      simp only [StatefulSource.step] at stepped
      cases isOp : cluster.operator worker with
      | none => exact absurd isOp isBuilt
      | some op =>
          simp only [isOp, Except.ok.injEq] at stepped
          subst stepped
          have same : Marks op.allPartitions
              (source.receive op message worker).1.allPartitions [] := by
            rw [receive_allPartitions]
            exact .refl _
          have known := knows_update isOp same rfl cluster.links
          constructor
          · cases isRescale : message.rescale? with
            | none =>
                exact manned.update isOp
                  (receive_commClients op worker isRescale) same.listed
                  cluster.links
            | some rescale =>
                obtain rfl : message = .rescale rescale := by
                  cases message <;> simp_all [Message.rescale?]
                exact (manned.rescale isOp (isNext rescale rfl)).2
          · constructor
            · intro sender receiver part flies
              exact (known sender part).mpr
                (.inl (informed.honest sender receiver part flies))
            · intro owner part knows other isActive
              have knows : cluster.knows owner part := by
                simpa using (known owner part).mp knows
              exact (informed.told owner part knows other isActive).imp
                (fun knows => (known other part).mpr (.inl knows)) id
  | reconfigure rescale =>
      obtain rfl := Except.ok.inj stepped
      have rescaled : (source.reconfigure cluster rescale).operator =
          cluster.operator ∧
          (source.reconfigure cluster rescale).Manned listParts :=
        manned.reconfigure removes
      obtain ⟨same, manned⟩ := rescaled
      refine ⟨manned, ?_, ?_⟩
      · intro sender receiver part flies
        unfold Cluster.knows
        rw [same]
        exact informed.honest sender receiver part flies
      · intro owner part knows other isActive
        unfold Cluster.knows at knows ⊢
        rw [same] at knows ⊢
        exact informed.told owner part knows other (removes other isActive)

theorem mem_unfinished {parts : List Part}
    {allPartitions : IndexMap Part Bool} {part : Part} :
    part ∈ parts.foldl (fun partitions part => partitions.insert part false)
        allPartitions ↔
      part ∈ allPartitions ∨ part ∈ parts := by
  induction parts generalizing allPartitions with
  | nil => simp
  | cons head rest ih =>
      rw [List.foldl_cons, ih, IndexMap.mem_insert, List.mem_cons, or_assoc]

theorem get?_unfinished {parts : List Part}
    {allPartitions : IndexMap Part Bool} {part : Part}
    (unfinished : allPartitions.get? part ≠ some true) :
    (parts.foldl (fun partitions part => partitions.insert part false)
      allPartitions).get? part ≠ some true := by
  induction parts generalizing allPartitions with
  | nil => exact unfinished
  | cons head rest ih =>
      apply ih
      rw [IndexMap.get?_insert]
      split
      next => simp
      next => exact unfinished

theorem StatefulSource.start_manned (workers : IndexSet WorkerId)
    (restored : WorkerId → Option (IndexMap Part S)) :
    (source.start workers restored).Manned source.builder.listParts ∧
      (source.start workers restored).Informed := by
  have isNew : ∀ worker op,
      (source.start workers restored).operator worker = some op →
      worker ∈ workers ∧ op = source.new worker workers (restored worker) := by
    intro worker op isOp
    simp only [start] at isOp
    split at isOp
    next member => exact ⟨member, (Option.some.inj isOp).symm⟩
    next => simp at isOp
  refine ⟨⟨?_, ?_, ?_, ?_, ?_, ?_, ?_⟩, ?_, ?_⟩
  · intro worker op isOp part
    obtain ⟨-, rfl⟩ := isNew worker op isOp
    simp [new, mem_unfinished]
  · intro worker member
    exact ⟨_, if_pos member⟩
  · intro worker op isOp
    obtain ⟨-, rfl⟩ := isNew worker op isOp
    simp [new]
  · intro worker op isOp other isActive isOther
    obtain ⟨-, rfl⟩ := isNew worker op isOp
    simp [new, isOther]
    exact isActive
  · intro worker op isOp rescale isUpcoming
    simp [start] at isUpcoming
  · intro worker
    exact List.Pairwise.nil
  · intro worker rescale isUpcoming
    simp [start] at isUpcoming
  · intro sender receiver part flies
    simp [start] at flies
  · intro owner part knows
    obtain ⟨op, isOp, finished⟩ := knows
    obtain ⟨-, rfl⟩ := isNew owner op isOp
    exact absurd finished (get?_unfinished (by simp))

theorem values_all_true {marked : IndexMap Part Bool}
    (isMarked : ∀ part ∈ marked, marked.get? part = some true) :
    marked.values.all id = true := by
  rw [List.all_eq_true]
  intro value member
  obtain ⟨entry, isEntry, rfl⟩ := List.mem_map.mp member
  have found := IndexMap.get?_eq_some.mpr isEntry
  have marked := isMarked entry.1 (IndexMap.mem_of_get?_eq_some found)
  exact Option.some.inj (found.symm.trans marked)

/-- While rescales only remove workers, the clients of a worker are the others,
and once everything is finished and told every active worker emits its final
epoch when it is scheduled next. -/
theorem StatefulSource.end_agreed {workers : IndexSet WorkerId}
    {restored : WorkerId → Option (IndexMap Part S)}
    {cluster : Cluster Part T P}
    (run : Reaches source.step
      (fun cluster event => cluster.allowed event ∧ cluster.removes event)
      (source.start workers restored) cluster) :
    (∀ worker op rescale, cluster.operator worker = some op →
      (cluster.rescales worker).head? = some rescale → ∀ other,
        other ∈ (onRescale op rescale worker).commClients ↔
          other ∈ rescale.workers ∧ other ≠ worker) ∧
    ((∀ part ∈ source.builder.listParts, ∃ owner op,
        cluster.operator owner = some op ∧ part ∈ op.partitions ∧
          op.allPartitions.get? part = some true) →
      (∀ worker ∈ cluster.active, ∀ sender,
        cluster.links sender worker = []) →
      ∀ worker ∈ cluster.active, ∃ op, cluster.operator worker = some op ∧
        op.allPartitions.values.all id = true ∧
        ∀ incoming next effects,
          source.onSchedule op incoming = .ok (next, effects) →
          ∀ time ∈ op.maxT, .epoch time ∈ effects.output) ∧
    ∀ (op : PartitionOp Part T P) rescale thisWorker,
      thisWorker ∉ op.commClients →
      ((∀ worker, worker ∈ (onRescale op rescale thisWorker).commClients ↔
          worker ∈ rescale.workers ∧ worker ≠ thisWorker) ↔
        ∀ worker ∈ rescale.workers, worker ≠ thisWorker →
          worker ∈ op.commClients ∨ negate worker = thisWorker) := by
  obtain ⟨manned, informed⟩ : cluster.Manned source.builder.listParts ∧
      cluster.Informed :=
    run.invariant (fun cluster =>
        cluster.Manned source.builder.listParts ∧ cluster.Informed)
      (start_manned workers restored)
      fun _ _ _ _ kept permitted stepped =>
        kept.2.step kept.1 permitted.1 permitted.2 stepped
  refine ⟨fun worker op rescale isOp isNext => (manned.rescale isOp isNext).1,
    fun finished received worker isActive => ?_,
    fun op rescale thisWorker notSelf => onRescale_clients notSelf⟩
  obtain ⟨op, isOp⟩ := manned.built worker isActive
  have isMarked : ∀ part ∈ op.allPartitions,
      op.allPartitions.get? part = some true := by
    intro part member
    obtain ⟨owner, ownerOp, isOwner, -, isFinished⟩ :=
      finished part ((manned.listed worker op isOp part).mp member)
    cases informed.told owner part ⟨ownerOp, isOwner, isFinished⟩ worker
      isActive with
    | inl knows =>
        obtain ⟨same, isSame, marked⟩ := knows
        obtain rfl := Option.some.inj (isOp.symm.trans isSame)
        exact marked
    | inr flying =>
        obtain ⟨sender, flies⟩ := flying
        simp [received worker isActive sender] at flies
  refine ⟨op, isOp, values_all_true isMarked, ?_⟩
  intro incoming next effects scheduled
  obtain ⟨marks, -, emits⟩ := onSchedule_marks scheduled
  refine emits (values_all_true fun part member => ?_)
  exact (marks.marked part).mpr
    (.inl (isMarked part ((marks.listed part).mp member)))

/-! A source with one partition, which is finished at once. -/

def finite : StatefulSource Nat Nat Nat Nat Nat :=
  { operatorId := 1
    builder :=
      { listParts := [7]
        buildPart := fun _ state => state.getD 0
        poll := fun partition => (none, partition)
        isFinished := fun partition => (true, partition)
        snapshot := id
        collect := id
        suspend := id }
    maxTime := 100
    encode := fun _ => []
    decode := fun _ => 0 }

def one : IndexSet WorkerId := IndexSet.ofList [0]

def two : IndexSet WorkerId := IndexSet.ofList [0, 1]

/-- Two workers of which one is removed after the other has finished. -/
def leaveTrace : List (Cluster.Event Nat) :=
  [.receive 0 (.data ⟨7, (), .noTime⟩), .schedule 0, .schedule 1,
    .reconfigure ⟨one, 0⟩, .receive 1 (.rescale ⟨one, 0⟩)]

@[irreducible] def leaving : Cluster Nat Nat Nat :=
  replay finite.step (finite.start two fun _ => none) leaveTrace

theorem leaving_agreed :
    ∃ op, leaving.operator 0 = some op ∧
      op.allPartitions.values.all id = true ∧
      ∀ incoming next effects,
        finite.onSchedule op incoming = .ok (next, effects) →
        ∀ time ∈ op.maxT, .epoch time ∈ effects.output := by
  have run : Reaches finite.step
      (fun cluster event => cluster.allowed event ∧ cluster.removes event)
      (finite.start two fun _ => none) leaving := by
    unfold leaving
    exact Follows.reaches leaveTrace .refl (by decide +kernel)
  refine (StatefulSource.end_agreed run).2.1 ?_ ?_ 0 (by decide +kernel)
  · intro part member
    obtain rfl : part = 7 := by simpa [finite] using member
    have state : (leaving.operator 0).map (fun op =>
        (op.partitions.keys, op.allPartitions.get? 7)) =
          some ([7], some true) := by decide +kernel
    obtain ⟨op, isOp, state⟩ := Option.map_eq_some_iff.mp state
    obtain ⟨keys, finished⟩ := Prod.mk.inj state
    exact ⟨0, op, isOp, by simp [IndexMap.mem_def, keys], finished⟩
  · intro worker isActive sender
    obtain rfl : worker = 0 := by
      have : leaving.active.items = [0] := by decide +kernel
      simpa [IndexSet.mem_def, this] using isActive
    have : leaving.links = StatefulSource.receiveAll
        (Links.send (StatefulSource.receiveAll (fun _ _ => [])
          (two.retain fun worker => decide (worker ≠ 0)) 0) 0 1 7)
        (two.retain fun worker => decide (worker ≠ 1)) 1 := by
      unfold leaving
      rfl
    simp [this, StatefulSource.receiveAll, Links.send, Links.set_apply]

/-- One worker joined by another before its partition finishes. -/
def joinTrace : List (Cluster.Event Nat) :=
  [.reconfigure ⟨two, 0⟩, .receive 0 (.rescale ⟨two, 0⟩),
    .receive 1 (.rescale ⟨two, 0⟩), .receive 0 (.data ⟨7, (), .noTime⟩),
    .schedule 0]

@[irreducible] def joined : Cluster Nat Nat Nat :=
  replay finite.step (finite.start one fun _ => none) joinTrace

theorem joined_not_told :
    Reaches finite.step Cluster.allowed (finite.start one fun _ => none)
      joined ∧
    (∀ sender worker, joined.links sender worker = []) ∧
    1 ∈ joined.active ∧ joined.rescales 0 = [] ∧
    ((joined.operator 0).map fun op => (op.partitions.keys,
      op.allPartitions.get? 7, op.commClients.items)) =
        some ([7], some true, []) ∧
    ((joined.operator 1).map fun op => op.allPartitions.get? 7) =
      some (some false) := by
  refine ⟨?_, ?_, by decide +kernel⟩
  · unfold joined
    exact Follows.reaches joinTrace .refl (by decide +kernel)
  · intro sender worker
    have : joined.links =
        StatefulSource.receiveAll (fun _ _ => []) IndexSet.empty 0 := by
      unfold joined
      rfl
    rw [this, StatefulSource.receiveAll]
    split <;> rfl

end Malstrom.Sources
