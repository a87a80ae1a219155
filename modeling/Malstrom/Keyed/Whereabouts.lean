import Malstrom.Data.Lone
import Malstrom.Keyed.Exclusive
import Malstrom.Operators.PerKey

namespace Malstrom.Keyed

open Data Operators

variable {K V T VO S L : Type}

/-! Where the state of a key is: at an operator, in the cell of a collection, on
a link or in front of an operator. -/

inductive Place where
  | operator (worker : WorkerId)
  | cell (worker : WorkerId)
  | queue (worker : WorkerId)
  | link (source target : WorkerId)
  deriving DecidableEq

def Place.Within (workers : IndexSet WorkerId) : Place → Prop
  | .operator worker | .cell worker | .queue worker => worker ∈ workers
  | .link source target => source ∈ workers ∧ target ∈ workers

def Place.all (workers : IndexSet WorkerId) : List Place :=
  workers.items.flatMap fun worker =>
    [.operator worker, .cell worker, .queue worker] ++
      workers.items.map (.link worker)

theorem Place.mem_all {workers : IndexSet WorkerId} {place : Place} :
    place ∈ Place.all workers ↔ place.Within workers := by
  simp only [all, List.mem_flatMap, List.mem_append, List.mem_cons,
    List.not_mem_nil, or_false, List.mem_map]
  cases place <;> simp [Within, IndexSet.mem_def]

theorem Place.nodup_all (workers : IndexSet WorkerId) :
    (Place.all workers).Nodup := by
  refine List.nodup_flatMap.mpr ⟨fun worker _ => ?_, ?_⟩
  · refine List.nodup_append.mpr ⟨by simp, ?_, by simp⟩
    exact workers.nodup.map fun _ _ same => (Place.link.inj same).2
  · refine workers.nodup.imp fun {first second} different => ?_
    simp only [Function.onFun, List.disjoint_left, List.mem_append,
      List.mem_cons, List.not_mem_nil, or_false, List.mem_map]
    rintro place ((rfl | rfl | rfl) | ⟨_, _, rfl⟩) <;>
      simp [different, Ne.symm different]

section

variable [DecidableEq K]

/-- What a collection has for the operator, if it is of the key. -/
def stored (operator : StatefulOp K V T VO S L) (key collected : K)
    (collection : IndexMap OperatorId Bytes) : List S :=
  if collected = key then
    ((collection.get? operator.operatorId).map operator.decode).toList
  else []

def messageStates (operator : StatefulOp K V T VO S L) (key : K) :
    Message K V T → List S
  | .acquire moved => stored operator key moved.key moved.collection
  | _ => []

def linkStates (operator : StatefulOp K V T VO S L) (key : K) :
    NetworkMessage K V T → List S
  | .acquire moved => stored operator key moved.key moved.collection
  | _ => []

def cellStates (operator : StatefulOp K V T VO S L) (key : K) :
    MessageRouter K V T → List S
  | .collect router => router.currentCollect.toList.flatMap fun collect =>
      stored operator key collect.key collect.collection
  | _ => []

def System.content (operator : StatefulOp K V T VO S L) (key : K)
    (system : System K V T VO S L) : Place → List S
  | .operator worker =>
      ((system.workers worker).operator.state.get? key).toList
  | .cell worker =>
      cellStates operator key (system.workers worker).distributor.router
  | .queue worker =>
      (system.workers worker).queue.flatMap (messageStates operator key)
  | .link source target =>
      (system.links source target).flatMap (linkStates operator key)

variable {operator : StatefulOp K V T VO S L} {key : K}

theorem key_of_mem_stored {collected : K} {collection : IndexMap OperatorId Bytes}
    (some : stored operator key collected collection ≠ []) :
    collected = key := by
  by_contra other
  exact some (if_neg other)

theorem messageStates_ne_nil {message : Message K V T}
    (some : messageStates operator key message ≠ []) :
    message.isAcquire = true ∧ message.key? = Option.some key := by
  cases message with
  | acquire moved => exact ⟨rfl, congrArg Option.some (key_of_mem_stored some)⟩
  | _ => exact absurd rfl some

theorem messageStates_of_key {message : Message K V T}
    (other : message.key? ≠ some key) :
    messageStates operator key message = [] := by
  by_contra some
  exact other (messageStates_ne_nil some).2

theorem linkStates_ne_nil {message : NetworkMessage K V T}
    (some : linkStates operator key message ≠ []) :
    ∃ acquire, message = .acquire acquire ∧ acquire.key = key := by
  cases message with
  | acquire acquire => exact ⟨acquire, rfl, key_of_mem_stored some⟩
  | _ => exact absurd rfl some

theorem cellStates_ne_nil {router : MessageRouter K V T}
    (some : cellStates operator key router ≠ []) :
    ∃ collecting collect, router = .collect collecting ∧
      collecting.currentCollect = Option.some collect ∧ collect.key = key ∧
        collect ≠ Collect.new key := by
  cases router with
  | collect collecting =>
      cases current : collecting.currentCollect with
      | none => simp [cellStates, current] at some
      | some collect =>
          simp only [cellStates, current, Option.toList_some,
            List.flatMap_cons, List.flatMap_nil, List.append_nil] at some
          refine ⟨collecting, collect, rfl, current, key_of_mem_stored some, ?_⟩
          rintro rfl
          simp [stored, Collect.new] at some
  | _ => exact absurd rfl some

theorem cellStates_takeReport (distributor : Distributor K V T)
    {report : Report K S} (stateless : ∀ operatorId state,
      report ≠ .state operatorId state) :
    cellStates operator key (distributor.takeReport report).router =
      cellStates operator key distributor.router := by
  cases report with
  | state operatorId state => exact absurd rfl (stateless operatorId state)
  | keys keys =>
      cases isRouter : distributor.router <;>
        simp [Distributor.takeReport, isRouter, cellStates]
  | nothing => rfl
  | persist _ _ => rfl

/-- A record which a router sends on does not touch the cell. -/
theorem cellStates_of_routed {partitioner : WorkerPartitioner K}
    {thisWorker : WorkerId} {remotes : Remotes T} {arrival : Arrival K V T}
    {router next : MessageRouter K V T} {target : Option WorkerId}
    (routed : Routed partitioner thisWorker remotes arrival router next
      target) :
    cellStates operator key next = cellStates operator key router := by
  cases routed with
  | ahead _ _ => rfl
  | ruled _ rule => cases rule <;> rfl

end

/-! ### Collects on their way to the operator -/

def asksFor : Message K V T → Option K
  | .collect key => some key
  | _ => none

/-- A collect which is still in front of the operator is that of the router, and
nothing has been reported for it. -/
def Worker.Asks (current : Worker K V T VO S L) : Prop :=
  current.queue.filterMap asksFor = [] ∨
    ∃ collecting key, current.distributor.router = .collect collecting ∧
      collecting.currentCollect = some (Collect.new key) ∧
      current.queue.filterMap asksFor = [key]

theorem asksFor_of_not_isClone {message : Message K V T}
    (noClone : message.isClone = false) : asksFor message = none := by
  cases message <;> first | rfl | simp [Message.isClone] at noClone

theorem collects_of_not_isClone {queue : List (Message K V T)}
    (noClone : ∀ message ∈ queue, message.isClone = false) :
    queue.filterMap asksFor = [] :=
  List.filterMap_eq_nil_iff.mpr fun message member =>
    asksFor_of_not_isClone (noClone message member)

theorem Worker.Asks.idle {current : Worker K V T VO S L}
    (asks : current.Asks)
    (idle : ∀ collecting, current.distributor.router ≠ .collect collecting) :
    current.queue.filterMap asksFor = [] := by
  rcases asks with none | ⟨collecting, key, isCollecting, -, -⟩
  · exact none
  · exact absurd isCollecting (idle collecting)

theorem Worker.Asks.released {current : Worker K V T VO S L}
    {partitioner : WorkerPartitioner K} {router released : CollectRouter K V T}
    {network : List (WorkerId × NetworkMessage K V T)} (asks : current.Asks)
    (isCollecting : current.distributor.router = .collect router)
    (release : Released partitioner current.distributor.remotes
      current.clones router released network) :
    current.queue.filterMap asksFor = [] := by
  cases release with
  | idle idle =>
      rcases asks with none | ⟨collecting, key, same, isCurrent, -⟩
      · exact none
      · obtain rfl := MessageRouter.collect.inj (isCollecting.symm.trans same)
        rw [idle] at isCurrent
        cases isCurrent
  | released unwrapped _ _ =>
      exact collects_of_not_isClone (Rescale.noClone_of_clones unwrapped)

/-- Nothing of the key is ahead of its state. -/
def Worker.Arranged (current : Worker K V T VO S L) (key : K) : Prop :=
  current.queue.Pairwise fun earlier later =>
    later.isAcquire = true → later.key? = some key → earlier.key? ≠ some key

theorem Worker.Arranged.push {current next : Worker K V T VO S L} {key : K}
    {output : List (Message K V T)} (arranged : current.Arranged key)
    (isQueue : next.queue = current.queue ++ output)
    (stateless : ∀ message ∈ output, message.isAcquire = false) :
    next.Arranged key := by
  unfold Worker.Arranged
  rw [isQueue]
  refine List.pairwise_append.mpr ⟨arranged, ?_, ?_⟩
  · refine List.pairwise_of_forall_mem_list fun _ _ later member isAcquire => ?_
    rw [stateless later member] at isAcquire
    cases isAcquire
  · intro _ _ later member isAcquire
    rw [stateless later member] at isAcquire
    cases isAcquire

/-! ### What one step does to the state of a key -/

def Worker.emits (current next : Worker K V T VO S L) :
    List (DataMessage K VO T) :=
  (next.downstream.drop current.downstream.length).filterMap Message.data?

theorem Worker.emits_append {current next : Worker K V T VO S L}
    {more : List (Message K VO T)}
    (grows : next.downstream = current.downstream ++ more) :
    current.emits next = more.filterMap Message.data? := by
  rw [emits, grows, List.drop_left]

theorem Worker.emits_same {current next : Worker K V T VO S L}
    (same : next.downstream = current.downstream) :
    current.emits next = [] := by
  simp [emits, same]

section

variable [DecidableEq K] {operator : StatefulOp K V T VO S L} {key : K}
  {current next : Worker K V T VO S L}

/-- How the state of a key gets on without a record. -/
inductive Flow (operator : StatefulOp K V T VO S L) (key : K)
    (current next : Worker K V T VO S L) :
    Option (WorkerId × NetworkMessage K V T) →
      List (WorkerId × NetworkMessage K V T) → Prop
  | still {incoming : Option (WorkerId × NetworkMessage K V T)}
      {outgoing : List (WorkerId × NetworkMessage K V T)}
      (operatorSame : next.operator.state.get? key =
        current.operator.state.get? key)
      (cellSame : cellStates operator key next.distributor.router =
        cellStates operator key current.distributor.router)
      (queueSame : next.queue.flatMap (messageStates operator key) =
        current.queue.flatMap (messageStates operator key))
      (incomingNone : ∀ arrived ∈ incoming,
        linkStates operator key arrived.2 = [])
      (outgoingNone : ∀ sent ∈ outgoing, linkStates operator key sent.2 = []) :
      Flow operator key current next incoming outgoing
  | arrives {remote : WorkerId} {message : NetworkMessage K V T}
      (operatorSame : next.operator.state.get? key =
        current.operator.state.get? key)
      (cellSame : cellStates operator key next.distributor.router =
        cellStates operator key current.distributor.router)
      (queued : next.queue.flatMap (messageStates operator key) =
        current.queue.flatMap (messageStates operator key) ++
          linkStates operator key message) :
      Flow operator key current next (some (remote, message)) []
  | leaves {target : WorkerId} {message : NetworkMessage K V T}
      {rest : List (WorkerId × NetworkMessage K V T)}
      (operatorSame : next.operator.state.get? key =
        current.operator.state.get? key)
      (queueSame : next.queue.flatMap (messageStates operator key) =
        current.queue.flatMap (messageStates operator key))
      (released : cellStates operator key current.distributor.router =
        linkStates operator key message)
      (emptied : cellStates operator key next.distributor.router = [])
      (restNone : ∀ sent ∈ rest, linkStates operator key sent.2 = []) :
      Flow operator key current next none ((target, message) :: rest)
  | collected
      (queueSame : next.queue.flatMap (messageStates operator key) =
        current.queue.flatMap (messageStates operator key))
      (gone : next.operator.state.get? key = none)
      (empty : cellStates operator key current.distributor.router = [])
      (reported : cellStates operator key next.distributor.router =
        (current.operator.state.get? key).toList) :
      Flow operator key current next none []
  | taken {moved : List S}
      (cellSame : cellStates operator key next.distributor.router =
        cellStates operator key current.distributor.router)
      (gives : current.queue.flatMap (messageStates operator key) =
        moved ++ next.queue.flatMap (messageStates operator key))
      (idle : moved = [] →
        next.operator.state.get? key = current.operator.state.get? key)
      (takes : moved ≠ [] → (next.operator.state.get? key).toList = moved) :
      Flow operator key current next none []

structure Works (operator : StatefulOp K V T VO S L)
    (own : KeyLogic K V T VO S) (current next : Worker K V T VO S L)
    (record : DataMessage K V T) : Prop where
  state : next.operator.state.get? record.key =
    (own.onData record ((current.operator.state.get? record.key).getD
      operator.default)).1
  cellSame : cellStates operator record.key next.distributor.router =
    cellStates operator record.key current.distributor.router
  queueSame : next.queue.flatMap (messageStates operator record.key) =
    current.queue.flatMap (messageStates operator record.key)
  answers : (current.emits next).filter
      (fun emitted => decide (emitted.key = record.key)) =
    (own.onData record ((current.operator.state.get? record.key).getD
      operator.default)).2

theorem Flow.after {incoming : Option (WorkerId × NetworkMessage K V T)}
    {received : List (Message K V T)} {distributor : Distributor K V T}
    {effects : Effects K V T}
    {outgoing : List (WorkerId × NetworkMessage K V T)}
    (cellSame : cellStates operator key distributor.router =
      cellStates operator key current.distributor.router)
    (outputNone : ∀ message ∈ effects.output,
      messageStates operator key message = [])
    (incomingNone : ∀ arrived ∈ incoming,
      linkStates operator key arrived.2 = [])
    (outgoingNone : ∀ sent ∈ outgoing, linkStates operator key sent.2 = []) :
    Flow operator key current (current.after received distributor effects)
      incoming outgoing := by
  refine .still rfl cellSame ?_ incomingNone outgoingNone
  simp only [Worker.after, List.flatMap_append,
    List.flatMap_eq_nil_iff.mpr outputNone, List.append_nil]

theorem linkStates_of_arrival {thisWorker : WorkerId}
    {incoming : Option (WorkerId × NetworkMessage K V T)}
    {received : List (Message K V T)} {arrival : Arrival K V T}
    (arrives : arrivalOf thisWorker incoming received = some arrival) :
    ∀ arrived ∈ incoming, linkStates operator key arrived.2 = [] := by
  rcases arrivalOf_cases arrives with ⟨version, rfl, -, -⟩ | ⟨rfl, -, -⟩
  · rintro _ ⟨⟩
    rfl
  · simp

theorem linkStates_of_isQuiet {message : NetworkMessage K V T}
    (quiet : message.isQuiet = true) : linkStates operator key message = [] := by
  cases message <;> first | rfl | simp [NetworkMessage.isQuiet] at quiet

theorem messageStates_of_isQuiet {message : Message K V T}
    (quiet : message.isQuiet = true) :
    messageStates operator key message = [] := by
  cases message <;> first | rfl | simp [Message.isQuiet] at quiet

end

/-! The operator takes the message in front of it. -/

section

variable [DecidableEq K] {operator : StatefulOp K V T VO S L} {key : K}
  {current : Worker K V T VO S L} {message : Message K V T}
  {rest : List (Message K V T)} {operated : OperatorState K S L}
  {emitted : List (Message K VO T)} {report : Report K S}

def Worker.afterReceive (current : Worker K V T VO S L)
    (rest : List (Message K V T)) (operated : OperatorState K S L)
    (emitted : List (Message K VO T)) (report : Report K S) :
    Worker K V T VO S L :=
  { current with
    distributor := current.distributor.takeReport report
    queue := rest
    operator := operated
    downstream := current.downstream ++ emitted }

theorem queue_of_receive (head : current.queue = message :: rest)
    (other : message.key? ≠ some key) :
    rest.flatMap (messageStates operator key) =
      current.queue.flatMap (messageStates operator key) := by
  rw [head, List.flatMap_cons, messageStates_of_key other, List.nil_append]

theorem emits_of_receive :
    (current.emits (current.afterReceive rest operated emitted report)).filter
        (fun record => decide (record.key = key)) =
      emitted.filterMap (StatefulOp.answered key) := by
  rw [Worker.emits_append rfl, List.filter_filterMap]
  rfl

theorem flow_of_other (head : current.queue = message :: rest)
    (other : message.key? ≠ some key)
    (stateSame : operated.state.get? key = current.operator.state.get? key)
    (stateless : ∀ operatorId state, report ≠ .state operatorId state) :
    Flow operator key current
      (current.afterReceive rest operated emitted report) none [] :=
  .still stateSame (cellStates_takeReport _ stateless)
    (queue_of_receive head other) (by simp) (by simp)

omit [DecidableEq K] in
/-- A collect is that of the router, which has no report yet. -/
theorem Worker.Asks.collecting {collected : K} (asks : current.Asks)
    (head : current.queue = .collect collected :: rest) :
    ∃ collecting, current.distributor.router = .collect collecting ∧
      collecting.currentCollect = some (Collect.new collected) := by
  rcases asks with none | ⟨collecting, asked, isRouter, isCurrent, one⟩
  · simp [head, asksFor] at none
  · obtain ⟨rfl, -⟩ : collected = asked ∧ _ := by
      simpa [head, asksFor] using one
    exact ⟨collecting, isRouter, isCurrent⟩

theorem cellStates_new {router : MessageRouter K V T}
    {collecting : CollectRouter K V T} {collected : K}
    (isCollecting : router = .collect collecting)
    (isCurrent : collecting.currentCollect = some (Collect.new collected)) :
    cellStates operator key router = [] := by
  by_contra some
  obtain ⟨router, collect, same, found, isKey, reported⟩ :=
    cellStates_ne_nil some
  obtain rfl := MessageRouter.collect.inj (isCollecting.symm.trans same)
  obtain rfl := Option.some.inj (isCurrent.symm.trans found)
  exact reported (isKey ▸ rfl)

theorem flow_of_collect {collected : K}
    (back : ∀ state, operator.decode (operator.encode state) = state)
    (asks : current.Asks) (head : current.queue = .collect collected :: rest)
    (receives : operator.receive current.operator (.collect collected) =
      (operated, emitted, report)) :
    Flow operator key current
      (current.afterReceive rest operated emitted report) none [] := by
  obtain ⟨collecting, isCollecting, isCurrent⟩ := asks.collecting head
  have empty : cellStates operator key current.distributor.router = [] :=
    cellStates_new isCollecting isCurrent
  have queueSame : rest.flatMap (messageStates operator key) =
      current.queue.flatMap (messageStates operator key) :=
    queue_of_receive head (by simp [Message.key?])
  simp only [StatefulOp.receive] at receives
  cases held : current.operator.state.get? collected with
  | none =>
      simp only [held, Prod.mk.injEq] at receives
      obtain ⟨rfl, rfl, rfl⟩ := receives
      exact .still rfl rfl queueSame (by simp) (by simp)
  | some value =>
      simp only [held, Prod.mk.injEq] at receives
      obtain ⟨rfl, rfl, rfl⟩ := receives
      have reported : cellStates operator key
          (current.distributor.takeReport (.state operator.operatorId
            (operator.encode value) : Report K S)).router =
            if collected = key then [value] else [] := by
        simp [Distributor.takeReport, isCollecting, isCurrent, cellStates,
          stored, Collect.addState, Collect.new, IndexMap.get?_insert_self,
          back]
      by_cases isKey : collected = key
      · subst isKey
        rw [if_pos rfl] at reported
        refine .collected queueSame ?_ empty ?_
        · exact (IndexMap.get?_swapRemove _ _ _).trans (if_pos rfl)
        · rw [held]
          exact reported
      · rw [if_neg isKey] at reported
        refine .still ?_ (reported.trans empty.symm) queueSame (by simp)
          (by simp)
        exact (IndexMap.get?_swapRemove _ _ _).trans (if_neg (Ne.symm isKey))

theorem answered_of_collect {collected : K}
    (receives : operator.receive current.operator (.collect collected) =
      (operated, emitted, report)) :
    emitted.filterMap (StatefulOp.answered key) = [] := by
  simp only [StatefulOp.receive] at receives
  split at receives <;>
    · simp only [Prod.mk.injEq] at receives
      rw [← receives.2.1]
      rfl

theorem flow_of_acquire {moved : Acquire K}
    (head : current.queue = .acquire moved :: rest)
    (receives : operator.receive current.operator (.acquire moved) =
      (operated, emitted, report)) :
    Flow operator key current
        (current.afterReceive rest operated emitted report) none [] ∧
      emitted.filterMap (StatefulOp.answered key) = [] := by
  have taken := congrArg (fun result => result.1.state.get? key) receives
  have quiet := congrArg (fun result => result.2) receives
  simp only [StatefulOp.receive, Prod.mk.injEq] at taken quiet
  obtain ⟨rfl, rfl⟩ := quiet
  have gives : current.queue.flatMap (messageStates operator key) =
      messageStates operator key (.acquire moved) ++
        rest.flatMap (messageStates operator key) := by
    rw [head, List.flatMap_cons]
  refine ⟨.taken rfl gives (fun nothing => ?_) fun some => ?_, rfl⟩
  · refine taken.symm.trans ?_
    cases found : moved.collection.get? operator.operatorId with
    | none => simp [Acquire.takeState, found]
    | some bytes =>
        have other : ¬key = moved.key := by
          rintro rfl
          simp [messageStates, stored, found] at nothing
        simp [Acquire.takeState, found, IndexMap.get?_insert_of_ne _ _ other]
  · have isKey : moved.key = key :=
      Option.some.inj (messageStates_ne_nil some).2
    refine (congrArg Option.toList taken.symm).trans ?_
    cases found : moved.collection.get? operator.operatorId with
    | none => simp [messageStates, stored, found] at some
    | some bytes =>
        simp [Acquire.takeState, found, isKey, messageStates, stored,
          IndexMap.get?_insert_self]

end

/-- What an operator does with the message in front of it. -/
theorem flow_of_receive [DecidableEq K] {operator : StatefulOp K V T VO S L}
    {own : KeyLogic K V T VO S} {key : K} {current : Worker K V T VO S L}
    (keywise : operator.logic.Keywise own)
    (lasting : ∀ time state, own.onEpoch time state = some state)
    (back : ∀ state, operator.decode (operator.encode state) = state)
    (asks : current.Asks) {message : Message K V T}
    {rest : List (Message K V T)} {operated : OperatorState K S L}
    {emitted : List (Message K VO T)} {report : Report K S}
    (head : current.queue = message :: rest)
    (receives : operator.receive current.operator message =
      (operated, emitted, report)) :
    let next : Worker K V T VO S L := { current with
      distributor := current.distributor.takeReport report
      queue := rest
      operator := operated
      downstream := current.downstream ++ emitted }
    (∃ record, message = .data record ∧ record.key = key ∧
      Works operator own current next record) ∨
    (∀ record, message = .data record → record.key ≠ key) ∧
      (current.emits next).filter
        (fun record => decide (record.key = key)) = [] ∧
      Flow operator key current next none [] := by
  intro next
  have answers : (current.emits next).filter
      (fun record => decide (record.key = key)) =
        emitted.filterMap (StatefulOp.answered key) := emits_of_receive
  cases message with
  | data record =>
      obtain ⟨state, records⟩ :=
        StatefulOp.receive_data current.operator key keywise record
      simp only [receives] at state records
      obtain rfl : report = .nothing := by
        simpa [StatefulOp.receive] using
          (congrArg (fun result => result.2.2) receives).symm
      by_cases isKey : record.key = key
      · subst isKey
        rw [if_pos rfl] at state records
        refine .inl ⟨record, rfl, rfl, state, rfl, ?_, answers.trans records⟩
        rw [head, List.flatMap_cons]
        rfl
      · rw [if_neg isKey] at state records
        have other : (Message.data record : Message K V T).key? ≠ some key :=
          fun same => isKey (Option.some.inj same)
        refine .inr ⟨?_, answers.trans records,
          flow_of_other head other state (by simp)⟩
        rintro _ ⟨⟩
        exact isKey
  | epoch time =>
      obtain ⟨state, nothing⟩ :=
        keywise.onEpoch current.operator.memory time current.operator.state
      simp only [StatefulOp.receive, Prod.mk.injEq] at receives
      obtain ⟨rfl, rfl, rfl⟩ := receives
      refine .inr ⟨by simp, answers.trans ?_,
        flow_of_other head (by simp [Message.key?]) ?_ (by simp)⟩
      · simp [nothing, StatefulOp.emit, StatefulOp.answered, Message.data?]
      · rw [state key]
        cases current.operator.state.get? key with
        | none => rfl
        | some value => exact lasting time value
  | absBarrier | rescale | suspendMarker | interrogate =>
      simp only [StatefulOp.receive, Prod.mk.injEq] at receives
      obtain ⟨rfl, rfl, rfl⟩ := receives
      exact .inr ⟨by simp, answers,
        flow_of_other head (by simp [Message.key?]) rfl (by simp)⟩
  | collect collected =>
      exact .inr ⟨by simp, answers.trans (answered_of_collect receives),
        flow_of_collect back asks head receives⟩
  | acquire moved =>
      obtain ⟨flow, unanswered⟩ := flow_of_acquire head receives
      exact .inr ⟨by simp, answers.trans unanswered, flow⟩

theorem Released.flow [DecidableEq K] {partitioner : WorkerPartitioner K}
    {operator : StatefulOp K V T VO S L} {key : K}
    {current next : Worker K V T VO S L} {router released : CollectRouter K V T}
    {network rest : List (WorkerId × NetworkMessage K V T)}
    (isCollecting : current.distributor.router = .collect router)
    (release : Released partitioner current.distributor.remotes
      current.clones router released network)
    (emptied : cellStates operator key next.distributor.router = [])
    (operatorSame : next.operator.state.get? key =
      current.operator.state.get? key)
    (queueSame : next.queue.flatMap (messageStates operator key) =
      current.queue.flatMap (messageStates operator key))
    (restNone : ∀ sent ∈ rest, linkStates operator key sent.2 = []) :
    Flow operator key current next none (network ++ rest) := by
  cases release with
  | idle idle =>
      refine .still operatorSame ?_ queueSame (by simp) restNone
      rw [emptied, isCollecting]
      simp [cellStates, idle]
  | @released collect _ isCurrent _ =>
      refine .leaves operatorSame queueSame ?_ emptied ?_
      · rw [isCollecting]
        simp [cellStates, isCurrent, linkStates]
      · intro sent member
        rcases List.mem_append.mp member with buffered | after
        · obtain ⟨message, -, rfl⟩ := List.mem_map.mp buffered
          rfl
        · exact restNone sent after

theorem Worker.Asks.of_routed [DecidableEq K] {current : Worker K V T VO S L}
    {partitioner : WorkerPartitioner K} {thisWorker : WorkerId}
    {remotes : Remotes T} {arrival : Arrival K V T}
    {router : MessageRouter K V T} {target : Option WorkerId}
    {received : List (Message K V T)} {effects : Effects K V T}
    (asks : current.Asks)
    (routed : Routed partitioner thisWorker remotes arrival
      current.distributor.router router target)
    (unasked : effects.output.filterMap asksFor = []) :
    (current.after received { current.distributor with router := router }
      effects).Asks := by
  have sameQueue : (current.after received
      { current.distributor with router := router } effects).queue.filterMap
        asksFor = current.queue.filterMap asksFor := by
    simp [Worker.after, List.filterMap_append, unasked]
  rcases asks with none | ⟨collecting, key, isRouter, isCurrent, one⟩
  · exact .inl (sameQueue.trans none)
  · right
    rw [isRouter] at routed
    have still : ∃ after, router = .collect after ∧
        after.currentCollect = collecting.currentCollect := by
      cases routed with
      | ahead _ _ => exact ⟨collecting, rfl, rfl⟩
      | ruled _ rule => cases rule <;> exact ⟨_, rfl, rfl⟩
    obtain ⟨after, isAfter, same⟩ := still
    exact ⟨after, key, isAfter, same.trans isCurrent, sameQueue.trans one⟩

theorem Worker.Asks.same_router {current next : Worker K V T VO S L}
    (asks : current.Asks)
    (sameRouter : next.distributor.router = current.distributor.router)
    (sameQueue : next.queue.filterMap asksFor =
      current.queue.filterMap asksFor) : next.Asks := by
  unfold Worker.Asks
  rw [sameRouter, sameQueue]
  exact asks

namespace Rescale

section

variable [DecidableEq K] [MaybeTime T] {job : Job K V T VO S L}
  {rescale : Rescale} {system : System K V T VO S L} {event : Event K V T}
  {worker : Worker K V T VO S L}
  {outgoing : List (WorkerId × NetworkMessage K V T)} {key : K}
  {own : KeyLogic K V T VO S}

theorem Step.flow (key : K) (keywise : job.operator.logic.Keywise own)
    (lasting : ∀ time state, own.onEpoch time state = some state)
    (back : ∀ state, job.operator.decode (job.operator.encode state) = state)
    (asks : (system.workers event.worker).Asks)
    (step : rescale.Step job system event worker outgoing) :
    (∃ record, system.operated event = some (.data record) ∧
      record.key = key ∧ system.incoming event = none ∧ outgoing = [] ∧
      Works job.operator own (system.workers event.worker) worker record) ∨
    (∀ record, system.operated event = some (.data record) →
        record.key ≠ key) ∧
      ((system.workers event.worker).emits worker).filter
        (fun record => decide (record.key = key)) = [] ∧
      Flow job.operator key (system.workers event.worker) worker
        (system.incoming event) outgoing := by
  have move := step.move
  generalize system.incoming event = incoming at move ⊢
  generalize system.received event = received at move
  generalize system.operated event = operated at move ⊢
  have unworked {next : Worker K V T VO S L}
      {incoming : Option (WorkerId × NetworkMessage K V T)}
      {outgoing : List (WorkerId × NetworkMessage K V T)}
      (same : next.downstream = (system.workers event.worker).downstream)
      (flow : Flow job.operator key (system.workers event.worker) next incoming
        outgoing) :
      (∀ record, (none : Option (Message K V T)) = some (.data record) →
          record.key ≠ key) ∧
        ((system.workers event.worker).emits next).filter
          (fun record => decide (record.key = key)) = [] ∧
        Flow job.operator key (system.workers event.worker) next incoming
          outgoing :=
    ⟨(by simp), by rw [Worker.emits_same same]; rfl, flow⟩
  cases move with
  | quiet sameRouter _ quietOutput quietNetwork quietIncoming _ =>
      exact .inr (unworked rfl (.after (by rw [sameRouter])
        (fun message member => messageStates_of_isQuiet
          (quietOutput message member))
        (fun arrived member => linkStates_of_isQuiet
          (quietIncoming arrived member))
        fun sent member => linkStates_of_isQuiet (quietNetwork sent member)))
  | kept arrives routed =>
      refine .inr (unworked rfl (.after (cellStates_of_routed routed) ?_
        (linkStates_of_arrival arrives) (by simp)))
      intro message member
      obtain rfl := List.mem_singleton.mp member
      rfl
  | buffered arrives routed =>
      exact .inr (unworked rfl (.after (cellStates_of_routed routed) (by simp)
        (linkStates_of_arrival arrives) (by simp)))
  | forwarded arrives routed _ _ =>
      refine .inr (unworked rfl (.after (cellStates_of_routed routed) (by simp)
        (linkStates_of_arrival arrives) ?_))
      intro sent member
      obtain rfl := List.mem_singleton.mp member
      rfl
  | acquire =>
      refine .inr (unworked rfl (.arrives rfl rfl ?_))
      simp only [Worker.after, List.flatMap_append, List.flatMap_singleton]
      rfl
  | upgrade =>
      refine .inr (unworked rfl (.after rfl (by simp) ?_ ?_))
      · rintro _ ⟨⟩
        rfl
      · intro sent member
        obtain rfl := List.mem_singleton.mp member
        rfl
  | ackUpgrade =>
      refine .inr (unworked rfl (.after rfl (by simp) ?_ (by simp)))
      rintro _ ⟨⟩
      rfl
  | rescale waiting =>
      refine .inr (unworked rfl (.after ?_ ?_ (by simp) (by simp)))
      · rw [waiting]
        rfl
      · intro message member
        obtain rfl := List.mem_singleton.mp member
        rfl
  | rescaleCopy _ => exact .inr (unworked rfl (.after rfl (by simp) (by simp) (by simp)))
  | interrogated interrogating _ =>
      refine .inr (unworked rfl (.after ?_ (by simp) (by simp) (by simp)))
      rw [interrogating]
      rfl
  | collectNext collecting release _ =>
      rw [← List.append_nil outgoing]
      refine .inr (unworked rfl (release.flow collecting ?_ rfl ?_ (by simp)))
      · simp [Worker.after, cellStates, stored, Collect.new]
      · simp [Worker.after, messageStates]
  | concluded collecting release _ =>
      refine .inr (unworked rfl (release.flow collecting rfl rfl ?_ ?_))
      · simp [Worker.after]
      · intro sent member
        obtain ⟨remote, -, rfl⟩ := List.mem_map.mp member
        rfl
  | finished finished _ =>
      refine .inr (unworked rfl (.after ?_ ?_ (by simp) (by simp)))
      · rw [finished]
        rfl
      · intro message member
        obtain rfl := List.mem_singleton.mp member
        rfl
  | scheduled _ =>
      rw [StatefulOp.schedule_keywise keywise]
      exact .inr (unworked (List.append_nil _) (.still rfl rfl rfl (by simp) (by simp)))
  | received head receives reports =>
      rw [StatefulOp.schedule_keywise keywise] at receives ⊢
      subst reports
      rcases flow_of_receive keywise lasting back asks head receives with
        ⟨record, rfl, isKey, works⟩ | ⟨other, silent, flow⟩
      · refine .inl ⟨record, rfl, isKey, rfl, rfl, ?_⟩
        simpa only [List.append_nil] using works
      · refine .inr ⟨fun record same => other record (Option.some.inj same), ?_⟩
        simpa only [List.append_nil] using And.intro silent flow
  | sink =>
      refine .inr ⟨(by simp), ?_, .still rfl rfl rfl (by simp) (by simp)⟩
      rw [Worker.emits, List.drop_eq_nil_of_le]
      · rfl
      · simp

theorem Step.asks (asks : (system.workers event.worker).Asks)
    (step : rescale.Step job system event worker outgoing) : worker.Asks := by
  have move := step.move
  generalize system.incoming event = incoming at move
  generalize system.received event = received at move
  generalize system.operated event = operated at move
  cases move with
  | quiet sameRouter _ quietOutput _ _ _ =>
      refine asks.same_router sameRouter ?_
      have unasked := collects_of_not_isClone fun message member =>
        (Message.key?_of_isQuiet (quietOutput message member)).2
      rw [Worker.after, List.filterMap_append, unasked, List.append_nil]
  | kept _ routed => exact asks.of_routed routed rfl
  | buffered _ routed => exact asks.of_routed routed rfl
  | forwarded _ routed _ _ => exact asks.of_routed routed rfl
  | acquire =>
      exact asks.same_router rfl (by
        simp [Worker.after, List.filterMap_append, asksFor])
  | upgrade | ackUpgrade | rescaleCopy =>
      exact asks.same_router rfl (by simp [Worker.after])
  | rescale waiting =>
      left
      rw [Worker.after, List.filterMap_append, asks.idle (by simp [waiting])]
      rfl
  | interrogated interrogating _ =>
      left
      rw [Worker.after, List.filterMap_append,
        asks.idle (by simp [interrogating])]
      rfl
  | @collectNext _ _ _ key _ collecting release _ =>
      refine .inr ⟨_, key, rfl, rfl, ?_⟩
      rw [Worker.after, List.filterMap_append,
        asks.released collecting release]
      rfl
  | concluded collecting release _ =>
      left
      rw [Worker.after, List.filterMap_append,
        asks.released collecting release]
      rfl
  | finished finished _ =>
      left
      rw [Worker.after, List.filterMap_append, asks.idle (by simp [finished])]
      rfl
  | scheduled _ => exact asks
  | @received message rest _ operator emitted report head receives reports =>
      rcases asks with none | ⟨collecting, key, isRouter, isCurrent, one⟩
      · left
        rw [head] at none
        simp only [List.filterMap_eq_nil_iff] at none ⊢
        exact fun later member => none later (List.mem_cons_of_mem _ member)
      · rw [head, List.filterMap_cons] at one
        cases asked : asksFor message with
        | some _ =>
            rw [asked] at one
            exact .inl (List.cons.inj one).2
        | none =>
            rw [asked] at one
            refine .inr ⟨collecting, key, ?_, isCurrent, one⟩
            have stateless : ∀ operatorId state,
                report ≠ .state operatorId state := by
              rintro operatorId state rfl
              cases message with
              | collect _ => cases asked
              | _ => simp [StatefulOp.receive] at receives
            rw [reports]
            cases report with
            | state operatorId state =>
                exact absurd rfl (stateless operatorId state)
            | keys _ => simp [Distributor.takeReport, isRouter]
            | nothing | persist _ _ => exact isRouter
  | sink => exact asks

end

end Rescale

end Malstrom.Keyed
