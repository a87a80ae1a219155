import Malstrom.Keyed.Snapshot

namespace Malstrom.Keyed

open Data Operators

variable {K V T VO S L : Type}

/-! Where records end while no rescale is under way: with the worker which owns
their key, and before its barrier if they were taken before one. -/

structure Delivers (partitioner : WorkerPartitioner K)
    (workers : IndexSet WorkerId) (system : System K V T VO S L) : Prop where
  handed : ∀ worker ∈ workers, ∀ message ∈ (system.workers worker).handed,
    message.isQuiet = true ∨ ∃ record, message = .data record ∧
      partitioner record.key workers = worker
  links : ∀ source target acquire,
    .acquire acquire ∉ system.links source target

theorem Idle.delivers {partitioner : WorkerPartitioner K}
    {workers : IndexSet WorkerId} {version : Version}
    {system : System K V T VO S L} (idle : Idle workers version system) :
    Delivers partitioner workers system where
  handed worker member := by simp [idle.history worker member]
  links source target acquire := by simp [idle.links]

section

variable [DecidableEq K] [MaybeTime T] {job : Job K V T VO S L}
  {workers : IndexSet WorkerId} {version : Version}
  {system next : System K V T VO S L} {event : Event K V T}

theorem delivers_of_move {worker : Worker K V T VO S L}
    {outgoing : List (WorkerId × NetworkMessage K V T)}
    (aligned : Aligned job.partitioner workers version system)
    (steady : Steady workers system event)
    (delivers : Delivers job.partitioner workers system)
    (move : Move job event.worker (system.workers event.worker)
      (system.incoming event) (system.received event) (system.operated event)
      worker outgoing) :
    (∀ message ∈ worker.handed, message.isQuiet = true ∨
      ∃ record, message = .data record ∧
        job.partitioner record.key workers = event.worker) ∧
      ∀ target acquire, (target, .acquire acquire) ∉ outgoing := by
  obtain ⟨isRouter, clients⟩ := aligned.running event.worker steady.member
  have before := delivers.handed event.worker steady.member
  have head : ∀ arrived ∈ system.incoming event,
      arrived.2 ∈ system.links arrived.1 event.worker ∧
        (arrived.1 ∈ workers ∧ arrived.1 ≠ event.worker) := by
    intro arrived found
    obtain ⟨client, isHead⟩ := System.incoming_head found
    exact ⟨List.mem_of_head? isHead, (clients arrived.1).mp client⟩
  have unscaled : ∀ message ∈ system.received event,
      message.rescale? = none := fun message member =>
    (steady.received message member).1
  generalize system.incoming event = incoming at move head
  generalize system.received event = received at move unscaled
  generalize system.operated event = operated at move
  cases move with
  | quiet _ _ quietOutput quietNetwork _ _ =>
      refine ⟨fun message member => ?_, fun target acquire member => ?_⟩
      · rcases List.mem_append.mp member with earlier | now
        · exact before message earlier
        · exact .inl (quietOutput message now)
      · have quiet := quietNetwork _ member
        simp [NetworkMessage.isQuiet] at quiet
  | @kept _ _ arrival _ arrives routed =>
      refine ⟨fun message member => ?_, by simp⟩
      rcases List.mem_append.mp member with earlier | now
      · exact before message earlier
      · refine .inr ⟨arrival.message, List.mem_singleton.mp now, ?_⟩
        rcases arrivalOf_cases arrives with ⟨version, rfl, -, -⟩ |
          ⟨-, -, noVersion⟩
        · obtain ⟨queued, inside, other⟩ := head _ rfl
          exact (aligned.paced _ _ other inside steady.member).owned _ queued
        · have route := congrArg Prod.snd routed.routeMessage
          rw [isRouter, noVersion] at route
          simpa [MessageRouter.routeMessage, NormalRouter.routeMessage]
            using route
  | buffered _ routed =>
      rw [isRouter] at routed
      cases routed with
      | ruled _ rule => cases rule
  | forwarded => exact ⟨by simpa [Worker.after] using before, by simp⟩
  | acquire =>
      exact absurd (head _ rfl).1 (delivers.links _ _ _)
  | upgrade | ackUpgrade => exact ⟨by simpa [Worker.after] using before, by simp⟩
  | rescale | rescaleCopy =>
      simp [Message.rescale?] at unscaled
  | interrogated other | collectNext other | concluded other
  | finished other =>
      simp [isRouter] at other
  | scheduled | received | sink => exact ⟨before, by simp⟩

theorem Delivers.step
    (aligned : Aligned job.partitioner workers version system)
    (steady : Steady workers system event)
    (delivers : Delivers job.partitioner workers system)
    (stepped : system.step job event = .ok next) :
    Delivers job.partitioner workers next := by
  rcases System.step_cases stepped with rfl | ⟨worker, outgoing, move, rfl⟩
  · exact delivers
  · obtain ⟨handed, sends⟩ := delivers_of_move aligned steady delivers move
    refine ⟨fun other member => ?_, fun source target acquire member => ?_⟩
    · rw [System.moved_worker]
      split
      next same =>
        rw [same]
        exact handed
      next => exact delivers.handed other member
    · rw [System.moved_links, List.mem_append] at member
      rcases member with queued | now
      · refine delivers.links source target acquire ?_
        split at queued
        · exact List.mem_of_mem_tail queued
        · exact queued
      · split at now
        · exact sends target acquire (Links.mem_addressedTo.mp now)
        · cases now

end

section

variable {partitioner : WorkerPartitioner K} {workers : IndexSet WorkerId}
  {version : Version} {system : System K V T VO S L}

/-- A worker passes a barrier on only behind those of all other workers, or
their suspension. -/
theorem Aligned.started_of_emitted
    (aligned : Aligned partitioner workers version system)
    {worker source : WorkerId} (member : worker ∈ workers)
    (inside : source ∈ workers)
    (emitted : 0 < (system.workers worker).emitted) :
    0 < (system.workers source).started ∨
      (system.workers source).isClosed = true := by
  by_cases same : source = worker
  · subst same
    left
    rw [← aligned.pending source member]
    exact Nat.add_pos_left emitted _
  · have paced := aligned.paced source worker same inside member
    cases suspended :
        (system.workers worker).distributor.flags.sentSuspend source with
    | true =>
        rw [suspended] at paced
        exact .inr (paced.closed viewAfter_sweep_of_passed)
    | false =>
        left
        rw [← paced.paced suspended, Worker.seen]
        omega

/-- The records a worker owns have reached it before its first barrier, if they
were taken before one. -/
theorem Aligned.delivered
    (aligned : Aligned partitioner workers version system)
    (delivers : Delivers partitioner workers system)
    {worker source : WorkerId} (inside : source ∈ workers)
    (emitted : 0 < (system.workers worker).emitted)
    {record : DataMessage K V T}
    (taken : record ∈ (system.workers source).recordsTaken 1)
    (owned : partitioner record.key workers = worker) :
    record ∈ (system.workers worker).recordsHanded 1 := by
  have early : record ∈ system.recordsTaken workers 1 :=
    Multiset.mem_sum.mpr ⟨source, List.mem_toFinset.mpr inside, taken⟩
  rw [aligned.conserved 1, Multiset.mem_add] at early
  rcases early with handed | onLink
  · obtain ⟨other, member, isHanded⟩ := Multiset.mem_sum.mp handed
    have early : record ∈ (system.workers other).recordsHanded 1 := isHanded
    obtain ⟨message, isMessage, carries⟩ := mem_of_mem_beforeBarrier early
    have isOwner : partitioner record.key workers = other := by
      rcases delivers.handed other (List.mem_toFinset.mp member) message
        isMessage with quiet | ⟨found, rfl, isOwner⟩
      · cases message with
        | data => simp [Message.isQuiet] at quiet
        | epoch | absBarrier | rescale | suspendMarker | interrogate | collect
        | acquire => cases carries
      · obtain rfl := Option.some.inj carries
        exact isOwner
    obtain rfl := isOwner.symm.trans owned
    exact early
  · obtain ⟨⟨remote, target⟩, member, queued⟩ := Multiset.mem_sum.mp onLink
    simp only [Finset.mem_offDiag, List.mem_toFinset, ← IndexSet.mem_def]
      at member
    have waits : record ∈ beforeBarrier NetworkMessage.isBarrier
        NetworkMessage.record? (1 - (system.workers target).seen remote)
        (system.links remote target) := queued
    obtain ⟨message, isMessage, carries⟩ := mem_of_mem_beforeBarrier waits
    have paced := aligned.paced remote target member.2.2 member.1 member.2.1
    have isTarget : partitioner record.key workers = target := by
      cases message with
      | data found =>
          obtain rfl := Option.some.inj carries
          exact paced.owned found isMessage
      | epoch | barrierMarker | suspendMarker | acquire | upgrade
      | ackUpgrade => cases carries
    obtain rfl := isTarget.symm.trans owned
    have all : 1 - (system.workers target).seen remote = 0 := by
      unfold Worker.seen
      omega
    rw [all, beforeBarrier_zero] at waits
    cases waits

end

/-! ### What is behind the distributors -/

section

variable [DecidableEq K] [MaybeTime T] {job : Job K V T VO S L}
  {system next : System K V T VO S L} {event : Event K V T}

/-- A call of a distributor and not of what is behind it. -/
def Event.isCall : Event K V T → Bool
  | .receiveRemote .. | .receiveLocal .. | .tryEmitBarrier _
  | .tryEmitShutdown _ | .lifecycle _ => true
  | .operator _ | .sink _ => false

/-- What a distributor hands down waits in the channel behind it. -/
theorem System.fed (stepped : system.step job event = .ok next)
    (isCall : event.isCall = true) (worker : WorkerId) :
    ∃ output,
      (next.workers worker).handed =
        (system.workers worker).handed ++ output ∧
      (next.workers worker).queue = (system.workers worker).queue ++ output := by
  have still : ∃ output,
      (system.workers worker).handed =
        (system.workers worker).handed ++ output ∧
      (system.workers worker).queue =
        (system.workers worker).queue ++ output :=
    ⟨[], (List.append_nil _).symm, (List.append_nil _).symm⟩
  have moved (thisWorker : WorkerId)
      (incoming : Option (WorkerId × NetworkMessage K V T))
      (received : List (Message K V T))
      (result : Distributor K V T × Effects K V T) :
      let moved := system.moved thisWorker incoming
        ((system.workers thisWorker).after received result.1 result.2)
        result.2.network
      ∃ output,
        (moved.workers worker).handed =
          (system.workers worker).handed ++ output ∧
        (moved.workers worker).queue =
          (system.workers worker).queue ++ output := by
    simp only [System.moved_worker]
    split
    next same => exact ⟨result.2.output, by rw [same]; rfl, by rw [same]; rfl⟩
    next => exact still
  cases event with
  | receiveRemote thisWorker remote =>
      rcases System.receiveRemote_cases stepped with rfl |
        ⟨message, result, -, -, -, -, rfl⟩
      · exact still
      · exact moved ..
  | receiveLocal thisWorker message =>
      rcases System.receiveLocal_cases stepped with rfl |
        ⟨result, -, -, -, rfl⟩
      · exact still
      · exact moved ..
  | tryEmitBarrier thisWorker =>
      simp only [System.step, Except.ok.injEq] at stepped
      rw [← stepped, System.install_eq_moved']
      exact moved ..
  | tryEmitShutdown thisWorker =>
      simp only [System.step, Except.ok.injEq] at stepped
      rw [← stepped, System.install_eq_moved']
      exact moved ..
  | lifecycle thisWorker =>
      simp only [System.step] at stepped
      split at stepped
      next result _ =>
        simp only [Except.ok.injEq] at stepped
        rw [← stepped, System.install_eq_moved']
        exact moved ..
      next => cases stepped
  | operator | sink => cases isCall

theorem System.step_taken (stepped : system.step job event = .ok next)
    (worker : WorkerId) :
    (next.workers worker).taken = (system.workers worker).taken ++
      if worker = event.worker then system.received event else [] := by
  have moves {moved : Worker K V T VO S L}
      {outgoing : List (WorkerId × NetworkMessage K V T)}
      (taken : moved.taken = (system.workers event.worker).taken ++
        system.received event) :
      ((system.moved event.worker (system.incoming event) moved
          outgoing).workers worker).taken = (system.workers worker).taken ++
        if worker = event.worker then system.received event else [] := by
    rw [System.moved_worker]
    split
    next same => rw [taken, same]
    next => exact (List.append_nil _).symm
  cases event with
  | receiveLocal thisWorker message =>
      simp only [System.step, System.receiveLocal] at stepped
      split at stepped
      next pending =>
        obtain rfl := Except.ok.inj stepped
        simp [System.received, pending]
      next free =>
        split at stepped
        next result _ =>
          obtain rfl := Except.ok.inj stepped
          rw [System.install_eq_moved]
          exact moves (by simp [System.received, free, Worker.after,
            Event.worker])
        next => cases stepped
  | _ =>
      rcases System.step_cases stepped with rfl | ⟨moved, outgoing, move, rfl⟩
      · simp [System.received]
      · exact moves move.taken

structure Alike (system next : System K V T VO S L) : Prop where
  distributor : ∀ worker,
    (next.workers worker).distributor = (system.workers worker).distributor
  taken : ∀ worker, (next.workers worker).taken = (system.workers worker).taken
  handed : ∀ worker,
    (next.workers worker).handed = (system.workers worker).handed
  links : next.links = system.links

omit [DecidableEq K] [MaybeTime T] in
theorem Alike.aligned {partitioner : WorkerPartitioner K}
    {workers : IndexSet WorkerId} {version : Version}
    (alike : Alike system next)
    (aligned : Aligned partitioner workers version system) :
    Aligned partitioner workers version next where
  running worker member := by
    rw [alike.distributor]
    exact aligned.running worker member
  pending worker member := by
    simp only [Worker.emitted, Worker.started, alike.handed, alike.taken,
      alike.distributor]
    exact aligned.pending worker member
  shut worker member := by
    simp only [Worker.isShut, alike.handed, alike.distributor]
    exact aligned.shut worker member
  paced source target different inside member := by
    have paced := aligned.paced source target different inside member
    simp only [Worker.seen, Worker.emitted, alike.handed, alike.distributor,
      alike.links]
    refine ⟨paced.owned, paced.silent, ?_, ?_⟩
    · simp only [Worker.isClosed, alike.taken]
      exact paced.closed
    · simp only [Worker.started, alike.taken]
      exact paced.paced
  conserved number := by
    have conserved := aligned.conserved number
    simp only [System.recordsTaken, System.recordsHanded, System.inFlight,
      Worker.recordsTaken, Worker.recordsHanded, Worker.seen, Worker.emitted,
      alike.taken, alike.handed, alike.distributor, alike.links]
    exact conserved

omit [DecidableEq K] [MaybeTime T] in
theorem Alike.delivers {partitioner : WorkerPartitioner K}
    {workers : IndexSet WorkerId} (alike : Alike system next)
    (delivers : Delivers partitioner workers system) :
    Delivers partitioner workers next where
  handed worker member := by
    rw [alike.handed]
    exact delivers.handed worker member
  links := by
    rw [alike.links]
    exact delivers.links

end

end Malstrom.Keyed
