import Malstrom.Keyed.Whereabouts

namespace Malstrom.Keyed

open Data Operators

variable {K V T VO S L : Type}

/-! A job over all its rescales does with a key what the program of the key does
with its records: its state is in one place, wherever it is moved to, and it is
the state to which the records lead which operators of any worker have taken. -/

namespace Rescale

/-- One of the places of the workers has the state of the key. -/
structure Tracked [DecidableEq K] (workers : IndexSet WorkerId)
    (job : Job K V T VO S L) (system : System K V T VO S L) (key : K)
    (value : Option S) : Prop where
  asks : ∀ worker ∈ workers, (system.workers worker).Asks
  arranged : ∀ worker ∈ workers, (system.workers worker).Arranged key
  lone : Lone (Place.Within workers) (system.content job.operator key) value

section

variable [DecidableEq K] [MaybeTime T] {job : Job K V T VO S L}
  {rescale : Rescale} {system : System K V T VO S L} {event : Event K V T}
  {worker : Worker K V T VO S L}
  {outgoing : List (WorkerId × NetworkMessage K V T)} {key : K}
  {own : KeyLogic K V T VO S} {value : Option S}

omit [MaybeTime T] in
theorem holds_of_state {current : WorkerId}
    (some : system.content job.operator key (.operator current) ≠ []) :
    (system.workers current).Holds key := by
  refine .inl (IndexMap.get?_isSome.mp ?_)
  cases held : (system.workers current).operator.state.get? key with
  | none => simp [System.content, held] at some
  | some _ => rfl

omit [MaybeTime T] in
theorem holds_of_queue {current : WorkerId}
    (some : system.content job.operator key (.queue current) ≠ []) :
    ∃ message ∈ (system.workers current).queue,
      message.isAcquire = true ∧ message.key? = Option.some key := by
  by_contra none
  refine some (List.flatMap_eq_nil_iff.mpr fun message queued => ?_)
  by_contra stores
  exact none ⟨message, queued, messageStates_ne_nil stores⟩

omit [MaybeTime T] in
theorem acquire_of_link {source target : WorkerId}
    (some : system.content job.operator key (.link source target) ≠ []) :
    ∃ acquire, .acquire acquire ∈ system.links source target ∧
      acquire.key = key := by
  by_contra none
  refine some (List.flatMap_eq_nil_iff.mpr fun message linked => ?_)
  by_contra stores
  obtain ⟨acquire, rfl, isKey⟩ := linkStates_ne_nil stores
  exact none ⟨acquire, linked, isKey⟩

omit [MaybeTime T] in
/-- Nobody but the worker in front of which a record is next has any state of its
key. -/
theorem Tracked.elsewhere (selects : Selects job.partitioner)
    (nonempty : rescale.old.items ≠ []) (shaped : rescale.Shaped job system)
    (secured : rescale.Secured job system)
    (tracked : Tracked rescale.participants job system key value) {here : WorkerId}
    (participant : here ∈ rescale.participants) {record : DataMessage K V T}
    (next : (system.workers here).queue.head? = some (.data record))
    (isKey : record.key = key) :
    ∀ place, place.Within rescale.participants → place ≠ .operator here →
      system.content job.operator key place = [] := by
  have queued := List.mem_of_head? next
  have holds : (system.workers here).Holds key :=
    .inr ⟨_, queued, congrArg some isKey⟩
  have custody := secured.custody key
  have old := selects key rescale.old nonempty
  have alone {other : WorkerId} (member : other ∈ rescale.participants)
      (holdsToo : (system.workers other).Holds key) : other = here :=
    secured.holder_unique selects nonempty shaped member participant holdsToo
      holds
  intro place within elsewhere
  by_contra stores
  cases place with
  | operator other =>
      exact elsewhere (congrArg Place.operator
        (alone within (holds_of_state stores)))
  | queue other =>
      obtain ⟨message, behind, isAcquire, carries⟩ := holds_of_queue stores
      obtain rfl := alone within (.inr ⟨message, behind, carries⟩)
      have arranged := tracked.arranged other within
      unfold Worker.Arranged at arranged
      cases queue : (system.workers other).queue with
      | nil => simp [queue] at next
      | cons first rest =>
          rw [queue] at next arranged behind
          obtain rfl : first = .data record := Option.some.inj next
          rcases List.mem_cons.mp behind with rfl | later
          · cases isAcquire
          · exact (List.pairwise_cons.mp arranged).1 message later isAcquire
              carries (congrArg some isKey)
  | link source target =>
      obtain ⟨acquire, linked, ofKey⟩ := acquire_of_link stores
      obtain ⟨rfl, rfl⟩ := custody.acquires source target acquire linked ofKey
      have given := custody.givenUp _ linked ofKey
      rcases custody.holders here participant holds with rfl | ⟨-, passed⟩
      · have stays := secured.owned_of_givenUp selects nonempty shaped given
          holds
        exact (secured.kept.underway.addressed _ _ acquire linked).1.2.2
          stays.symm
      · exact passed.arrived acquire linked ofKey
  | cell other =>
      obtain ⟨collecting, collect, isRouter, isCurrent, ofKey, reported⟩ :=
        cellStates_ne_nil stores
      have current : collecting.currentKey = some key := by
        rw [CollectRouter.currentKey, isCurrent, Option.map_some, ofKey]
      have collects : (system.workers other).distributor.router.Collects key := by
        rw [isRouter]
        exact .inr ⟨collect, isCurrent, ofKey⟩
      have isFormer := custody.collects other within collects
      obtain rfl : here = other := by
        rcases custody.holders here participant holds with same | ⟨-, passed⟩
        · exact same.trans isFormer.symm
        · have given := passed.givenUp
          rw [GivenUp, ← isFormer, isRouter] at given
          rw [isRouter] at collects
          exact absurd collects given
      -- the collect has been taken, and no record of the key is behind it
      have away : job.partitioner key rescale.new ≠ here := by
        have leaves := (secured.tidy here within).leaves key collects
        rw [isFormer, (buildSet_of_old old).1] at leaves
        rw [isFormer]
        exact leaves.symm
      have stationed := secured.kept.stationed here within
      unfold Stationed at stationed
      rw [isRouter] at stationed
      have taken : ∀ message ∈ (system.workers here).queue,
          message.isCollect key = false := by
        intro message member
        rcases tracked.asks here within with none | ⟨router, asked, same, found, -⟩
        · have unasked := List.filterMap_eq_nil_iff.mp none message member
          cases message <;> first | rfl | cases unasked
        · obtain rfl := MessageRouter.collect.inj (isRouter.symm.trans same)
          obtain rfl := Option.some.inj (isCurrent.symm.trans found)
          exact absurd (ofKey ▸ rfl) reported
      exact (((stationed.2.1 key current).2 away).done taken).2 _ queued
        (congrArg some isKey)

/-! ### One step -/

omit [MaybeTime T] in
theorem content_link (operator : StatefulOp K V T VO S L)
    (incoming : Option (WorkerId × NetworkMessage K V T))
    (here source target : WorkerId) :
    (system.moved here incoming worker outgoing).content operator key
        (.link source target) =
      (if incoming.map Prod.fst = some source ∧ target = here then
        (system.links source target).tail.flatMap (linkStates operator key)
      else system.content operator key (.link source target)) ++
        if source = here then
          (Links.addressedTo target outgoing).flatMap (linkStates operator key)
        else [] := by
  simp only [System.content, System.moved_links, List.flatMap_append]
  split <;> split <;> rfl

omit [MaybeTime T] in
theorem content_stays {operator : StatefulOp K V T VO S L}
    {incoming : Option (WorkerId × NetworkMessage K V T)} {here : WorkerId}
    {place : Place}
    (operatorSame : place = .operator here → worker.operator.state.get? key =
      (system.workers here).operator.state.get? key)
    (cellSame : place = .cell here →
      cellStates operator key worker.distributor.router =
        cellStates operator key (system.workers here).distributor.router)
    (queueSame : place = .queue here →
      worker.queue.flatMap (messageStates operator key) =
        (system.workers here).queue.flatMap (messageStates operator key))
    (linkSame : ∀ source target, place = .link source target →
      (system.moved here incoming worker outgoing).content operator key
          (.link source target) =
        system.content operator key (.link source target)) :
    (system.moved here incoming worker outgoing).content operator key place =
      system.content operator key place := by
  cases place with
  | operator other =>
      simp only [System.content, System.moved_worker]
      split
      next same => rw [same, operatorSame (congrArg Place.operator same)]
      next => rfl
  | cell other =>
      simp only [System.content, System.moved_worker]
      split
      next same => rw [same, cellSame (congrArg Place.cell same)]
      next => rfl
  | queue other =>
      simp only [System.content, System.moved_worker]
      split
      next same => rw [same, queueSame (congrArg Place.queue same)]
      next => rfl
  | link source target => exact linkSame source target rfl

omit [MaybeTime T] in
theorem content_link_idle (operator : StatefulOp K V T VO S L)
    (here source target : WorkerId) :
    (system.moved here none worker []).content operator key
        (.link source target) =
      system.content operator key (.link source target) := by
  rw [content_link, Links.addressedTo_nil, List.flatMap_nil, ite_self,
    List.append_nil, if_neg (by simp)]

omit [DecidableEq K] [MaybeTime T] in
theorem addressedTo_states {target : WorkerId}
    {operator : StatefulOp K V T VO S L} [DecidableEq K]
    (none : ∀ sent ∈ outgoing, linkStates operator key sent.2 = []) :
    (Links.addressedTo target outgoing).flatMap (linkStates operator key) = [] :=
  List.flatMap_eq_nil_iff.mpr fun _ member =>
    none _ (Links.mem_addressedTo.mp member)

omit [MaybeTime T] in
/-- The state which arrives is ahead of all others of its link. -/
theorem content_link_head {operator : StatefulOp K V T VO S L}
    {source target : WorkerId} {message : NetworkMessage K V T}
    (isHead : (system.links source target).head? = some message) :
    system.content operator key (.link source target) =
      linkStates operator key message ++
        (system.links source target).tail.flatMap
          (linkStates operator key) := by
  rw [System.content]
  cases link : system.links source target with
  | nil => simp [link] at isHead
  | cons first rest =>
      rw [link] at isHead
      obtain rfl : first = message := Option.some.inj isHead
      rfl

section

variable {workers : IndexSet WorkerId} {here : WorkerId}

omit [MaybeTime T] in
theorem lone_of_still {incoming : Option (WorkerId × NetworkMessage K V T)}
    (lone : Lone (Place.Within workers) (system.content job.operator key) value)
    (head : ∀ arrived ∈ incoming,
      (system.links arrived.1 here).head? = some arrived.2)
    (operatorSame : worker.operator.state.get? key =
      (system.workers here).operator.state.get? key)
    (cellSame : cellStates job.operator key worker.distributor.router =
      cellStates job.operator key (system.workers here).distributor.router)
    (queueSame : worker.queue.flatMap (messageStates job.operator key) =
      (system.workers here).queue.flatMap (messageStates job.operator key))
    (incomingNone : ∀ arrived ∈ incoming,
      linkStates job.operator key arrived.2 = [])
    (outgoingNone : ∀ sent ∈ outgoing,
      linkStates job.operator key sent.2 = []) :
    Lone (Place.Within workers) ((system.moved here incoming worker
      outgoing).content job.operator key) value := by
  refine lone.congr fun place _ => content_stays (fun _ => operatorSame)
    (fun _ => cellSame) (fun _ => queueSame) fun source target _ => ?_
  rw [content_link, addressedTo_states outgoingNone, ite_self, List.append_nil]
  split
  next taken =>
    obtain ⟨arrived, rfl, rfl⟩ := Option.map_eq_some_iff.mp taken.1
    rw [taken.2, content_link_head (head arrived rfl),
      incomingNone arrived rfl, List.nil_append]
  next => rfl

omit [MaybeTime T] in
theorem lone_of_arrives {remote : WorkerId} {message : NetworkMessage K V T}
    (lone : Lone (Place.Within workers) (system.content job.operator key) value)
    (sender : remote ∈ workers) (participant : here ∈ workers)
    (isHead : (system.links remote here).head? = some message)
    (operatorSame : worker.operator.state.get? key =
      (system.workers here).operator.state.get? key)
    (cellSame : cellStates job.operator key worker.distributor.router =
      cellStates job.operator key (system.workers here).distributor.router)
    (queued : worker.queue.flatMap (messageStates job.operator key) =
      (system.workers here).queue.flatMap (messageStates job.operator key) ++
        linkStates job.operator key message) :
    Lone (Place.Within workers) ((system.moved here (some (remote, message))
      worker []).content job.operator key) value := by
  have isSource : Place.Within workers (.link remote here) :=
    ⟨sender, participant⟩
  have isTarget : Place.Within workers (.queue here) := participant
  have gives : system.content job.operator key (.link remote here) =
      linkStates job.operator key message ++
        (system.moved here (some (remote, message)) worker []).content
          job.operator key (.link remote here) := by
    rw [content_link, if_pos ⟨rfl, rfl⟩, Links.addressedTo_nil,
      List.flatMap_nil, ite_self, List.append_nil, content_link_head isHead]
  refine lone.move isSource isTarget (by simp) gives ?_ ?_ ?_
  · intro nothing
    simp only [System.content, System.moved_worker, if_pos, queued, nothing,
      List.append_nil]
  · intro _ empty
    simp only [System.content] at empty
    simp only [System.content, System.moved_worker, if_pos, queued, empty,
      List.nil_append]
  · intro place _ notLink notQueue
    refine content_stays (fun _ => operatorSame) (fun _ => cellSame)
      (fun isQueue => absurd isQueue notQueue) fun source target isLink => ?_
    rw [content_link, Links.addressedTo_nil, List.flatMap_nil, ite_self,
      List.append_nil, if_neg]
    rintro ⟨isFirst, rfl⟩
    exact notLink (by rw [isLink, ← Option.some.inj isFirst])

omit [MaybeTime T] in
theorem lone_of_leaves {target : WorkerId} {message : NetworkMessage K V T}
    {rest : List (WorkerId × NetworkMessage K V T)}
    (lone : Lone (Place.Within workers) (system.content job.operator key) value)
    (participant : here ∈ workers)
    (sends : ∀ acquire, message = .acquire acquire → target ∈ workers)
    (operatorSame : worker.operator.state.get? key =
      (system.workers here).operator.state.get? key)
    (queueSame : worker.queue.flatMap (messageStates job.operator key) =
      (system.workers here).queue.flatMap (messageStates job.operator key))
    (released : cellStates job.operator key
        (system.workers here).distributor.router =
      linkStates job.operator key message)
    (emptied : cellStates job.operator key worker.distributor.router = [])
    (restNone : ∀ sent ∈ rest, linkStates job.operator key sent.2 = []) :
    Lone (Place.Within workers) ((system.moved here none worker
      ((target, message) :: rest)).content job.operator key) value := by
  have onLink : (system.moved here none worker
      ((target, message) :: rest)).content job.operator key
        (.link here target) =
      system.content job.operator key (.link here target) ++
        linkStates job.operator key message := by
    rw [content_link, Links.addressedTo_cons, if_pos rfl, if_pos rfl,
      List.flatMap_cons, addressedTo_states restNone, List.append_nil]
    rfl
  have elsewhere {place : Place} (notCell : place ≠ .cell here)
      (notLink : place ≠ .link here target) :
      (system.moved here none worker
        ((target, message) :: rest)).content job.operator key place =
        system.content job.operator key place := by
    refine content_stays (fun _ => operatorSame)
      (fun isCell => absurd isCell notCell) (fun _ => queueSame)
      fun source other isLink => ?_
    rw [content_link]
    split
    next none => cases none.1
    next =>
      split
      next same =>
        rw [Links.addressedTo_cons, if_neg, addressedTo_states restNone,
          List.append_nil]
        rintro rfl
        exact notLink (by rw [isLink, same])
      next => rw [List.append_nil]
  have gives : system.content job.operator key (.cell here) =
      linkStates job.operator key message ++
        (system.moved here none worker
          ((target, message) :: rest)).content job.operator key
            (.cell here) := by
    simp only [System.content, System.moved_worker, if_pos, emptied,
      List.append_nil, released]
  have isSource : Place.Within workers (.cell here) := participant
  by_cases stateless : linkStates job.operator key message = []
  · refine lone.congr fun place _ => ?_
    by_cases isCell : place = .cell here
    · rw [isCell, gives, stateless, List.nil_append]
    · by_cases isLink : place = .link here target
      · rw [isLink, onLink, stateless, List.append_nil]
      · exact elsewhere isCell isLink
  · obtain ⟨acquire, rfl, -⟩ := linkStates_ne_nil stateless
    have isTarget : Place.Within workers (.link here target) :=
      ⟨participant, sends acquire rfl⟩
    refine lone.move isSource isTarget (by simp) gives ?_ ?_
      fun place _ => elsewhere
    · exact fun nothing => absurd nothing stateless
    · intro _ empty
      rw [onLink, empty, List.nil_append]

omit [MaybeTime T] in
theorem lone_of_collected
    (lone : Lone (Place.Within workers) (system.content job.operator key) value)
    (participant : here ∈ workers)
    (queueSame : worker.queue.flatMap (messageStates job.operator key) =
      (system.workers here).queue.flatMap (messageStates job.operator key))
    (gone : worker.operator.state.get? key = none)
    (empty : cellStates job.operator key
      (system.workers here).distributor.router = [])
    (reported : cellStates job.operator key worker.distributor.router =
      ((system.workers here).operator.state.get? key).toList) :
    Lone (Place.Within workers) ((system.moved here none worker []).content
      job.operator key) value := by
  have isSource : Place.Within workers (.operator here) := participant
  have isTarget : Place.Within workers (.cell here) := participant
  have gives : system.content job.operator key (.operator here) =
      system.content job.operator key (.operator here) ++
        (system.moved here none worker []).content job.operator key
          (.operator here) := by
    simp only [System.content, System.moved_worker, if_pos, gone,
      Option.toList_none, List.append_nil]
  refine lone.move isSource isTarget (by simp) gives ?_ ?_ ?_
  · intro nothing
    simp only [System.content] at nothing
    simp only [System.content, System.moved_worker, if_pos, reported, nothing,
      empty]
  · intro _ _
    simp only [System.content, System.moved_worker, if_pos, reported]
  · intro place _ notOperator notCell
    exact content_stays (fun same => absurd same notOperator)
      (fun same => absurd same notCell) (fun _ => queueSame)
      fun source target _ => content_link_idle _ _ _ _

omit [MaybeTime T] in
theorem lone_of_taken {moved : List S}
    (lone : Lone (Place.Within workers) (system.content job.operator key) value)
    (participant : here ∈ workers)
    (cellSame : cellStates job.operator key worker.distributor.router =
      cellStates job.operator key (system.workers here).distributor.router)
    (gives : (system.workers here).queue.flatMap
        (messageStates job.operator key) =
      moved ++ worker.queue.flatMap (messageStates job.operator key))
    (idle : moved = [] → worker.operator.state.get? key =
      (system.workers here).operator.state.get? key)
    (takes : moved ≠ [] → (worker.operator.state.get? key).toList = moved) :
    Lone (Place.Within workers) ((system.moved here none worker []).content
      job.operator key) value := by
  have isSource : Place.Within workers (.queue here) := participant
  have isTarget : Place.Within workers (.operator here) := participant
  have gives : system.content job.operator key (.queue here) =
      moved ++ (system.moved here none worker []).content job.operator key
        (.queue here) := by
    simp only [System.content, System.moved_worker, if_pos]
    exact gives
  refine lone.move isSource isTarget (by simp) gives ?_ ?_ ?_
  · intro nothing
    simp only [System.content, System.moved_worker, if_pos, idle nothing]
  · intro some _
    simp only [System.content, System.moved_worker, if_pos, takes some]
  · intro place _ notQueue notOperator
    exact content_stays (fun same => absurd same notOperator)
      (fun _ => cellSame) (fun same => absurd same notQueue)
      fun source target _ => content_link_idle _ _ _ _

end

/-- A step which works on no record of the key leaves one state of it, or none. -/
theorem Step.lone
    (lone : Lone (Place.Within rescale.participants)
      (system.content job.operator key) value)
    (step : rescale.Step job system event worker outgoing)
    (flow : Flow job.operator key (system.workers event.worker) worker
      (system.incoming event) outgoing) :
    Lone (Place.Within rescale.participants)
      ((system.moved event.worker (system.incoming event) worker
        outgoing).content job.operator key) value := by
  have head := step.head
  have sender := step.sender
  have here := step.participant
  have sends {target : WorkerId} {message : NetworkMessage K V T}
      (member : (target, message) ∈ outgoing) (acquire : NetworkAcquire K)
      (same : message = .acquire acquire) : target ∈ rescale.participants := by
    subst same
    exact (step.sends_acquire member).1.1
  generalize system.incoming event = incoming at head sender flow ⊢
  cases flow with
  | still operatorSame cellSame queueSame incomingNone outgoingNone =>
      exact lone_of_still lone (fun arrived incoming => (head arrived incoming).2)
        operatorSame cellSame queueSame incomingNone outgoingNone
  | arrives operatorSame cellSame queued =>
      exact lone_of_arrives lone (sender _ rfl).1 here (head _ rfl).2 operatorSame
        cellSame queued
  | leaves operatorSame queueSame released emptied restNone =>
      exact lone_of_leaves lone here (sends List.mem_cons_self) operatorSame
        queueSame released emptied restNone
  | collected queueSame gone empty reported =>
      exact lone_of_collected lone here queueSame gone empty reported
  | taken cellSame gives idle takes =>
      exact lone_of_taken lone here cellSame gives idle takes

omit [MaybeTime T] in
/-- Whoever gets the state of a key has nothing of the key yet. -/
theorem Secured.awaits (secured : rescale.Secured job system)
    {source target : WorkerId}
    {acquire : NetworkAcquire K}
    (linked : .acquire acquire ∈ system.links source target) :
    ¬(system.workers target).Holds acquire.key := by
  intro holds
  obtain ⟨⟨-, participant, different⟩, isOwner, -⟩ :=
    secured.kept.underway.addressed source target acquire linked
  have custody := secured.custody acquire.key
  obtain ⟨rfl, rfl⟩ := custody.acquires source target acquire linked rfl
  rcases custody.holders _ participant holds with isFormer | ⟨-, passed⟩
  · exact different isFormer.symm
  · exact passed.arrived acquire linked rfl

theorem Step.arranged (secured : rescale.Secured job system)
    (arranged : (system.workers event.worker).Arranged key)
    (step : rescale.Step job system event worker outgoing) :
    worker.Arranged key := by
  have move := step.move
  have head := step.head
  generalize system.incoming event = incoming at move head
  generalize system.received event = received at move
  generalize system.operated event = operated at move
  have one {message : Message K V T} (stateless : message.isAcquire = false) :
      ∀ other ∈ [message], other.isAcquire = false := by
    intro other member
    exact List.mem_singleton.mp member ▸ stateless
  cases move with
  | quiet _ _ quietOutput _ _ _ =>
      refine arranged.push rfl fun message member => ?_
      have quiet := quietOutput message member
      cases message <;> first | rfl | simp [Message.isQuiet] at quiet
  | @acquire remote acquire =>
      refine List.pairwise_append.mpr ⟨arranged, List.pairwise_singleton _ _, ?_⟩
      intro earlier queued later member _ ofKey carries
      obtain rfl := List.mem_singleton.mp member
      obtain rfl : acquire.key = key := Option.some.inj ofKey
      exact secured.awaits (List.mem_of_head? (head _ rfl).2) (.inr ⟨earlier, queued, carries⟩)
  | kept | rescale | collectNext | finished =>
      exact arranged.push rfl (one rfl)
  | buffered | forwarded | upgrade | ackUpgrade | rescaleCopy | interrogated
  | concluded => exact arranged.push rfl (by simp)
  | scheduled | sink => exact arranged
  | received queue _ _ =>
      unfold Worker.Arranged at arranged
      rw [queue] at arranged
      exact (List.pairwise_cons.mp arranged).2

def operatedRecords (system : System K V T VO S L) (event : Event K V T) :
    List (DataMessage K V T) :=
  ((system.operated event).bind Message.data?).toList

def requests (key : K) (records : List (DataMessage K V T)) :
    List (Request K V T) :=
  (records.filter fun record => decide (record.key = key)).map .record

theorem Step.tracked (selects : Selects job.partitioner)
    (keywise : job.operator.logic.Keywise own)
    (lasting : ∀ time state, own.onEpoch time state = some state)
    (back : ∀ state, job.operator.decode (job.operator.encode state) = state)
    (nonempty : rescale.old.items ≠ []) (shaped : rescale.Shaped job system)
    (secured : rescale.Secured job system)
    (tracked : Tracked rescale.participants job system key value)
    (step : rescale.Step job system event worker outgoing) :
    Tracked rescale.participants job
        (system.moved event.worker (system.incoming event) worker outgoing) key
        ((own.transducer job.operator.default).after value
          (requests key (operatedRecords system event))) ∧
      ((system.workers event.worker).emits worker).filter
          (fun record => decide (record.key = key)) =
        (own.transducer job.operator.default).outputs value
          (requests key (operatedRecords system event)) := by
  have asks : ∀ other ∈ rescale.participants,
      ((system.moved event.worker (system.incoming event) worker
        outgoing).workers other).Asks := by
    intro other member
    rw [System.moved_worker]
    split
    next same => exact step.asks (tracked.asks _ step.participant)
    next => exact tracked.asks other member
  have arranged : ∀ other ∈ rescale.participants,
      ((system.moved event.worker (system.incoming event) worker
        outgoing).workers other).Arranged key := by
    intro other member
    rw [System.moved_worker]
    split
    next same =>
      exact step.arranged secured (tracked.arranged _ step.participant)
    next => exact tracked.arranged other member
  rcases step.flow key keywise lasting back
      (tracked.asks _ step.participant) with
    ⟨record, operated, isKey, incoming, rfl, works⟩ | ⟨other, silent, flow⟩
  · have next : (system.workers event.worker).queue.head? =
        some (.data record) := by
      cases event <;> first | exact operated | cases operated
    have elsewhere := tracked.elsewhere selects nonempty shaped secured
      step.participant next isKey
    have here : Place.Within rescale.participants (.operator event.worker) :=
      step.participant
    have held : (system.workers event.worker).operator.state.get? key = value :=
      by
      have only := tracked.lone.only here elsewhere
      simp only [System.content] at only
      cases state : (system.workers event.worker).operator.state.get? key <;>
        cases value <;> simp_all
    have asked : requests key (operatedRecords system event) =
        [.record record] := by
      simp [requests, operatedRecords, operated, Message.data?, isKey]
    obtain ⟨state, cellSame, queueSame, answers⟩ := works
    rw [isKey, held] at state answers
    rw [isKey] at cellSame queueSame
    rw [asked]
    refine ⟨⟨asks, arranged, .operator event.worker, here, ?_, ?_⟩, ?_⟩
    · simp only [System.content, System.moved_worker, if_pos, state]
      rfl
    · intro place within notOperator
      rw [incoming, content_stays (fun same => absurd same notOperator)
        (fun _ => cellSame) (fun _ => queueSame)]
      · exact elsewhere place within notOperator
      · intro source target _
        rw [content_link, Links.addressedTo_nil, List.flatMap_nil, ite_self,
          List.append_nil, if_neg (by simp)]
    · rw [answers, Transducer.outputs_cons, Transducer.outputs_nil,
        List.append_nil]
      rfl
  · have unasked : requests key (operatedRecords system event) = [] := by
      have none : (operatedRecords system event).filter
          (fun record => decide (record.key = key)) = [] := by
        rw [List.filter_eq_nil_iff]
        intro record member
        obtain ⟨message, operated, isData⟩ :=
          Option.bind_eq_some_iff.mp (Option.mem_toList.mp member)
        rw [Message.data?_eq_some.mp isData] at operated
        exact fun isKey => other record operated (of_decide_eq_true isKey)
      rw [requests, none, List.map_nil]
    rw [unasked]
    exact ⟨⟨asks, arranged, step.lone tracked.lone flow⟩, silent⟩

/-! ### From one rescale to the next -/

omit [MaybeTime T] in
theorem start_tracked (job : Job K V T VO S L) {workers : IndexSet WorkerId}
    (nonempty : workers.items ≠ []) (key : K) :
    Tracked workers job (System.initial job workers) key none where
  asks _ _ := .inl rfl
  arranged _ _ := .nil
  lone := by
    obtain ⟨worker, member⟩ := List.exists_mem_of_ne_nil _ nonempty
    have empty : ∀ place,
        (System.initial job workers).content job.operator key place = [] := by
      intro place
      cases place with
      | operator | cell | queue => rfl
      | link => rfl
    exact ⟨.operator worker, member, empty _, fun place _ _ => empty place⟩

omit [MaybeTime T] in
theorem Tracked.completed (selects : Selects job.partitioner)
    (nonempty : rescale.new.items ≠ []) (kept : rescale.Kept job system)
    (completed : rescale.Completed system)
    (tracked : Tracked rescale.participants job system key value) :
    Tracked rescale.new job system key value := by
  have within {worker : WorkerId} (member : worker ∈ rescale.new) :
      worker ∈ rescale.participants := mem_participants.mpr (.inr member)
  have owned := selects key rescale.new nonempty
  refine ⟨fun worker member => tracked.asks worker (within member),
    fun worker member => tracked.arranged worker (within member), ?_⟩
  obtain ⟨home, isNew⟩ := List.exists_mem_of_ne_nil _ nonempty
  have isHome : Place.Within rescale.new (.operator home) := isNew
  refine tracked.lone.restrict ?_ ?_ isHome
  · intro place isPart
    cases place with
    | operator | cell | queue => exact within isPart
    | link => exact ⟨within isPart.1, within isPart.2⟩
  · intro place isInside leaving
    by_contra stores
    cases place with
    | operator worker =>
        have held : key ∈ (system.workers worker).operator.state := by
          refine IndexMap.get?_isSome.mp ?_
          cases state : (system.workers worker).operator.state.get? key with
          | none => simp [System.content, state] at stores
          | some _ => rfl
        have isOwner := (kept.owns isInside (completed worker isInside)).2.1 key
          held
        exact leaving (isOwner ▸ owned)
    | queue worker =>
        obtain ⟨message, queued, -, carries⟩ := holds_of_queue stores
        have isOwner := (kept.owns isInside (completed worker isInside)).2.2
          message queued key carries
        exact leaving (isOwner ▸ owned)
    | cell worker =>
        obtain ⟨collecting, _, isRouter, -, -, -⟩ := cellStates_ne_nil stores
        have upgraded := completed worker isInside
        simp [Upgraded, isRouter, MessageRouter.phase] at upgraded
    | link source target =>
        obtain ⟨acquire, linked, -⟩ := acquire_of_link stores
        exact (kept.homed completed).noAcquire source target acquire linked

omit [MaybeTime T] in
theorem Tracked.begin {version : Version}
    (homed : Homed job.partitioner rescale.old version system)
    (tracked : Tracked rescale.old job system key value) :
    Tracked rescale.participants job (rescale.begin job system) key value := by
  have stays {worker : WorkerId} (old : worker ∈ rescale.old) :
      (rescale.begin job system).workers worker =
        { system.workers worker with taken := [], handed := [], sent := [] } := by
    simp [Rescale.begin, old]
  have built {worker : WorkerId} (member : worker ∈ rescale.participants)
      (joins : worker ∉ rescale.old) :
      (rescale.begin job system).workers worker =
        Worker.build job worker rescale.participants := by
    have new := (mem_participants.mp member).resolve_left joins
    simp [Rescale.begin, joins, new]
  refine ⟨?_, ?_, ?_⟩
  · intro worker member
    by_cases old : worker ∈ rescale.old
    · rw [stays old]
      exact tracked.asks worker old
    · rw [built member old]
      exact .inl rfl
  · intro worker member
    by_cases old : worker ∈ rescale.old
    · rw [stays old]
      exact tracked.arranged worker old
    · rw [built member old]
      exact .nil
  · refine tracked.lone.extend ?_ ?_ ?_
    · intro place isOld
      cases place with
      | operator | cell | queue => exact mem_participants.mpr (.inl isOld)
      | link =>
          exact ⟨mem_participants.mpr (.inl isOld.1),
            mem_participants.mpr (.inl isOld.2)⟩
    · intro place isOld
      cases place with
      | operator | cell | queue => simp only [System.content, stays isOld]
      | link => rfl
    · intro place member joins
      cases place with
      | operator | cell | queue =>
          simp only [System.content, built member joins]
          rfl
      | link source target =>
          by_contra stores
          obtain ⟨acquire, linked, -⟩ := acquire_of_link stores
          exact homed.noAcquire source target acquire linked

end

end Rescale

/-! ### Over all rescales -/

/-- A job with the records its operators have taken and sent so far, whatever the
worker. -/
structure Chronicle (K V T VO S L : Type) extends System K V T VO S L where
  processed : List (DataMessage K V T) := []
  emitted : List (DataMessage K VO T) := []

namespace Chronicle

section

variable [DecidableEq K] [MaybeTime T] (job : Job K V T VO S L)

def act (chronicle : Chronicle K V T VO S L) (event : Event K V T) :
    Except Panic (Chronicle K V T VO S L) :=
  match chronicle.toSystem.step job event with
  | .ok next => .ok {
      toSystem := next
      processed := chronicle.processed ++
        Rescale.operatedRecords chronicle.toSystem event
      emitted := chronicle.emitted ++ (chronicle.workers event.worker).emits
        (next.workers event.worker) }
  | .error panic => .error panic

omit [DecidableEq K] [MaybeTime T] in
def begin (rescale : Rescale) (settled : Chronicle K V T VO S L) :
    Chronicle K V T VO S L :=
  { settled with toSystem := rescale.begin job settled.toSystem }

end

variable [DecidableEq K] [MaybeTime T] {job : Job K V T VO S L}
  {chronicle next start : Chronicle K V T VO S L} {event : Event K V T}

theorem act_eq_ok (acted : chronicle.act job event = .ok next) :
    chronicle.toSystem.step job event = .ok next.toSystem ∧
      next.processed = chronicle.processed ++
        Rescale.operatedRecords chronicle.toSystem event ∧
      next.emitted = chronicle.emitted ++
        (chronicle.workers event.worker).emits (next.workers event.worker) := by
  unfold act at acted
  cases stepped : chronicle.toSystem.step job event with
  | error panic => simp [stepped] at acted
  | ok system =>
      simp only [stepped, Except.ok.injEq] at acted
      subst acted
      exact ⟨rfl, rfl, rfl⟩

/-- A run of the chronicle is one of the job. -/
theorem run_system {allowed : System K V T VO S L → Event K V T → Prop}
    (run : Reaches (Chronicle.act job)
      (fun chronicle event => allowed chronicle.toSystem event) start
      chronicle) :
    Reaches (fun state event => System.step job state event) allowed
      start.toSystem chronicle.toSystem := by
  induction run with
  | refl => exact .refl
  | tail _ permitted acted ih =>
      exact ih.tail permitted (act_eq_ok acted).1

theorem run_begun {rescale : Rescale}
    {allowed : System K V T VO S L → Event K V T → Prop}
    (run : Reaches (Chronicle.act job)
      (fun chronicle event => allowed chronicle.toSystem event)
      (start.begin job rescale) chronicle) :
    Reaches (fun state event => System.step job state event) allowed
      (rescale.begin job start.toSystem) chronicle.toSystem :=
  run_system run

/-- The states of a job between two rescales, with its worker set and its
configuration version. -/
inductive Settled (job : Job K V T VO S L)
    (admissible : IndexSet WorkerId → Prop)
    (allowed : Rescale → System K V T VO S L → Event K V T → Prop) :
    IndexSet WorkerId → Option Version → Chronicle K V T VO S L → Prop
  | start {workers : IndexSet WorkerId} (valid : admissible workers) :
      Settled job admissible allowed workers none
        { toSystem := System.initial job workers }
  | rescaled {workers : IndexSet WorkerId} {configVersion : Option Version}
      {settled chronicle : Chronicle K V T VO S L} (rescale : Rescale)
      (history : Settled job admissible allowed workers configVersion settled)
      (continues : rescale.Continues workers configVersion)
      (valid : admissible rescale.new)
      (run : Reaches (Chronicle.act job)
        (fun chronicle event => allowed rescale chronicle.toSystem event)
        (settled.begin job rescale) chronicle)
      (completed : rescale.Completed chronicle.toSystem) :
      Settled job admissible allowed rescale.new (some rescale.version) chronicle

theorem Settled.system {admissible : IndexSet WorkerId → Prop}
    {allowed : Rescale → System K V T VO S L → Event K V T → Prop}
    {workers : IndexSet WorkerId} {configVersion : Option Version}
    (settled : Settled job admissible allowed workers configVersion chronicle) :
    Keyed.Settled job admissible allowed workers configVersion
      chronicle.toSystem := by
  induction settled with
  | start valid => exact .start valid
  | rescaled rescale _ continues valid run completed ih =>
      exact .rescaled rescale ih continues valid (run_begun run) completed

structure Follows (own : KeyLogic K V T VO S) (job : Job K V T VO S L)
    (workers : IndexSet WorkerId) (key : K)
    (chronicle : Chronicle K V T VO S L) : Prop where
  tracked : Rescale.Tracked workers job chronicle.toSystem key
    ((own.transducer job.operator.default).after none
      (Rescale.requests key chronicle.processed))
  answers : chronicle.emitted.filter
      (fun record => decide (record.key = key)) =
    (own.transducer job.operator.default).outputs none
      (Rescale.requests key chronicle.processed)

theorem operated_idle {system : System K V T VO S L}
    (stepped : system.step job event = .ok system) :
    system.operated event = none := by
  cases event with
  | operator worker =>
      simp only [System.step, System.scheduleOperator, Except.ok.injEq]
        at stepped
      cases queue : (system.workers worker).queue with
      | nil => simp [System.operated, queue]
      | cons message rest =>
          simp only [queue] at stepped
          have shorter := congrArg
            (fun system => (system.workers worker).queue) stepped
          simp [System.setWorker, queue] at shorter
  | _ => rfl

omit [MaybeTime T] in
theorem requests_append (key : K) (first second : List (DataMessage K V T)) :
    Rescale.requests key (first ++ second) =
      Rescale.requests key first ++ Rescale.requests key second := by
  simp [Rescale.requests, List.filter_append]

variable {rescale : Rescale} {own : KeyLogic K V T VO S} {key : K}
  {workers : IndexSet WorkerId} {configVersion : Option Version}
  {settled : Chronicle K V T VO S L}

theorem Follows.run (selects : Rescale.Selects job.partitioner)
    (keywise : job.operator.logic.Keywise own)
    (lasting : ∀ time state, own.onEpoch time state = some state)
    (back : ∀ state, job.operator.decode (job.operator.encode state) = state)
    (history : Settled job (fun workers => workers.items ≠ [])
      (fun rescale system event => rescale.Permits system event ∧
        rescale.Careful job system event) workers configVersion settled)
    (continues : rescale.Continues workers configVersion)
    (follows : settled.Follows own job workers key)
    (run : Reaches (Chronicle.act job)
      (fun chronicle event => rescale.Permits chronicle.toSystem event ∧
        rescale.Careful job chronicle.toSystem event)
      (settled.begin job rescale) chronicle) :
    chronicle.Follows own job rescale.participants key := by
  have keeps := keywise.keepsKeys
  have homed := history.system.homed keeps
    fun _ _ _ allowed => ⟨allowed.1, allowed.2.1⟩
  have isOld := continues.old
  refine run.invariant (fun chronicle =>
    chronicle.Follows own job rescale.participants key) ?_ ?_
  · rw [← isOld] at homed follows
    exact ⟨follows.tracked.begin homed, follows.answers⟩
  · intro state event next before follows permitted acted
    obtain ⟨shaped, secured⟩ := Rescale.run_secured selects keeps history.system
      continues (run_begun before)
    obtain ⟨stepped, processed, emitted⟩ := act_eq_ok acted
    rcases Rescale.step_cases shaped permitted.1 stepped with
      same | ⟨worker, outgoing, step, same⟩
    · have idle := operated_idle (same ▸ stepped)
      have unprocessed : next.processed = state.processed := by
        rw [processed, Rescale.operatedRecords, idle]
        exact List.append_nil _
      have unemitted : next.emitted = state.emitted := by
        rw [emitted, same, Worker.emits_same rfl, List.append_nil]
      refine ⟨?_, ?_⟩
      · rw [same, unprocessed]
        exact follows.tracked
      · rw [unemitted, unprocessed]
        exact follows.answers
    · have nonempty : rescale.old.items ≠ [] := isOld ▸ history.system.valid
      obtain ⟨tracked, answers⟩ := step.tracked selects keywise lasting back
        nonempty shaped secured follows.tracked
      rw [← same, ← Transducer.after_append, ← requests_append, ← processed]
        at tracked
      refine ⟨tracked, ?_⟩
      rw [emitted, List.filter_append, follows.answers, processed,
        requests_append, Transducer.outputs_append, ← answers, same,
        System.moved_worker, if_pos rfl]

theorem Settled.follows (selects : Rescale.Selects job.partitioner)
    (keywise : job.operator.logic.Keywise own)
    (lasting : ∀ time state, own.onEpoch time state = some state)
    (back : ∀ state, job.operator.decode (job.operator.encode state) = state)
    (history : Settled job (fun workers => workers.items ≠ [])
      (fun rescale system event => rescale.Permits system event ∧
        rescale.Careful job system event) workers configVersion settled)
    (key : K) : settled.Follows own job workers key := by
  induction history with
  | start valid => exact ⟨Rescale.start_tracked job valid key, rfl⟩
  | rescaled rescale history continues valid run completed ih =>
      have follows := ih.run selects keywise lasting back history continues run
      obtain ⟨-, secured⟩ := Rescale.run_secured selects keywise.keepsKeys
        history.system continues (run_begun run)
      exact ⟨follows.tracked.completed selects valid secured.kept completed,
        follows.answers⟩

end Chronicle

/-- Over any number of rescales, as long as whatever is kept is vouched for, the
state of a key is in one place, whatever worker it is moved to, and is the one
its records lead to in the order in which operators have taken them; what they
have sent of the key are the answers of its program to these. -/
theorem key_refined [DecidableEq K] [MaybeTime T] {job : Job K V T VO S L}
    {own : KeyLogic K V T VO S} {workers : IndexSet WorkerId}
    {configVersion : Option Version} {settled chronicle : Chronicle K V T VO S L}
    {rescale : Rescale} (selects : Rescale.Selects job.partitioner)
    (keywise : job.operator.logic.Keywise own)
    (lasting : ∀ time state, own.onEpoch time state = some state)
    (back : ∀ state, job.operator.decode (job.operator.encode state) = state)
    (history : Chronicle.Settled job (fun workers => workers.items ≠ [])
      (fun rescale system event => rescale.Permits system event ∧
        rescale.Careful job system event) workers configVersion settled)
    (continues : rescale.Continues workers configVersion)
    (run : Reaches (Chronicle.act job)
      (fun chronicle event => rescale.Permits chronicle.toSystem event ∧
        rescale.Careful job chronicle.toSystem event)
      (settled.begin job rescale) chronicle) (key : K) :
    (Place.all rescale.participants).flatMap
        (chronicle.content job.operator key) =
      ((own.transducer job.operator.default).after none
        (Rescale.requests key chronicle.processed)).toList ∧
    chronicle.emitted.filter (fun record => decide (record.key = key)) =
      (own.transducer job.operator.default).outputs none
        (Rescale.requests key chronicle.processed) := by
  have follows := (history.follows selects keywise lasting back key).run selects
    keywise lasting back history continues run
  refine ⟨Lone.flatMap (Place.nodup_all _) ?_, follows.answers⟩
  simpa only [Place.mem_all] using follows.tracked.lone

theorem countLogic_keywise : countLogic.Keywise
    { onData := fun message count =>
        (some (count + 1), [⟨message.key, count + 1, message.timestamp⟩])
      onEpoch := fun _ => some } where
  onData _ _ _ := rfl
  records message count record member := by
    rw [List.mem_singleton.mp member]
  onEpoch _ _ state := ⟨fun key => by simp [countLogic], rfl⟩
  onSchedule _ _ := rfl

def countedTrace : List (Event Nat Unit Nat) :=
  grownTrace ++ [.receiveLocal 1 (.data ⟨1, (), 0⟩), .operator 1]

@[irreducible] def countedChronicle : Chronicle Nat Unit Nat Nat Nat Unit :=
  replay (Chronicle.act countJob)
    (Chronicle.begin countJob growth
      { toSystem := System.initial countJob growth.old }) countedTrace

theorem counted_refined :
    (Place.all growth.participants).flatMap
        (countedChronicle.content countJob.operator 1) = [2] ∧
      (countedChronicle.content countJob.operator 1 (.operator 1)) = [2] ∧
      countedChronicle.emitted.filter (fun record => decide (record.key = 1)) =
        [⟨1, 1, 0⟩, ⟨1, 2, 0⟩] := by
  have run : Reaches (Chronicle.act countJob)
      (fun chronicle event => growth.Permits chronicle.toSystem event ∧
        growth.Careful countJob chronicle.toSystem event)
      (Chronicle.begin countJob growth
        { toSystem := System.initial countJob growth.old })
      countedChronicle := by
    unfold countedChronicle
    exact Follows.reaches countedTrace .refl (by decide +kernel)
  have refined := key_refined
    (fun key _ nonempty => indexSelect_mem key nonempty) countLogic_keywise
    (fun _ _ => rfl) (fun count => List.length_replicate)
    (.start (by decide)) ⟨rfl, rfl, by simp⟩ run 1
  have processed : Rescale.requests 1 countedChronicle.processed =
      [.record ⟨1, (), 0⟩, .record ⟨1, (), 0⟩] := by decide +kernel
  rw [processed] at refined
  exact ⟨refined.1, by decide +kernel, refined.2⟩

end Malstrom.Keyed
