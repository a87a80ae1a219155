import Malstrom.Data.Conveyor
import Malstrom.Kubernetes.Communication

namespace Malstrom.Kubernetes.Communication

open Data

/-! Every endpoint's messages go to the other end on a conveyor of their own. -/

/-! ### The queues of an endpoint -/

namespace Endpoint

def inbound : Endpoint → Place
  | .operatorToOperator thisWorker toWorker operator =>
      .inbound thisWorker (toWorker, operator)
  | .workerToCoordinator thisWorker => .coordinatorInbound thisWorker
  | .coordinatorToWorker toWorker => .fromWorker toWorker

def outbound (task : Nat) : Endpoint → Place
  | .operatorToOperator thisWorker toWorker operator =>
      .outbound thisWorker (toWorker, operator)
  | .workerToCoordinator thisWorker => .coordinatorOutbound thisWorker
  | .coordinatorToWorker toWorker => .toWorker toWorker task

variable {endpoint other : Endpoint}

@[simp] theorem counterpart_counterpart (endpoint : Endpoint) :
    endpoint.counterpart.counterpart = endpoint := by
  cases endpoint <;> rfl

theorem counterpart_inj :
    endpoint.counterpart = other.counterpart ↔ endpoint = other := by
  constructor
  · intro same
    rw [← counterpart_counterpart endpoint, same, counterpart_counterpart]
  · rintro rfl
    rfl

theorem inbound_inj : endpoint.inbound = other.inbound ↔ endpoint = other := by
  cases endpoint <;> cases other <;> simp [inbound]

theorem eq_of_outbound {task otherTask : Nat}
    (same : endpoint.outbound task = other.outbound otherTask) :
    endpoint = other := by
  cases endpoint <;> cases other <;> simp_all [outbound]

@[simp] theorem inbound_ne_outbound (endpoint other : Endpoint) (task : Nat) :
    endpoint.inbound ≠ other.outbound task := by
  cases endpoint <;> cases other <;> simp [inbound, outbound]

/-- A stream goes to the queue which the other end receives from: what the
server decodes is what the task encoded. -/
@[simp] theorem serve_metadata (endpoint : Endpoint) :
    endpoint.serve endpoint.metadata = .ok endpoint.counterpart.inbound := by
  have worker (metadata : Metadata) (id : UInt64)
      (given : metadata.get? "from-worker-id" =
        some (.visible (toString id))) : fromWorkerId metadata = .ok id := by
    simp only [fromWorkerId, headerId, given, decodeId_toString]
  cases endpoint with
  | operatorToOperator thisWorker toWorker operator =>
      have operatorId :
          headerId (Endpoint.operatorToOperator thisWorker toWorker
            operator).metadata "operator-id" "operator_id" = .ok operator := by
        simp only [headerId, metadata]
        rw [IndexMap.get?_insert_of_ne _ _ (by decide),
          IndexMap.get?_insert_self]
        exact decodeId_toString operator
      have workerId := worker (Endpoint.operatorToOperator thisWorker toWorker
        operator).metadata thisWorker (IndexMap.get?_insert_self _ _ _)
      simp only [serve, operatorOperator, extractMetadata, operatorId, workerId]
      rfl
  | workerToCoordinator thisWorker =>
      have workerId := worker (Endpoint.workerToCoordinator thisWorker).metadata
        thisWorker (IndexMap.get?_insert_self _ _ _)
      simp only [serve, workerCoordinator, workerId]
      rfl
  | coordinatorToWorker toWorker => rfl

end Endpoint

namespace Network

variable {network : Network} {bufferCapacity : Nat}

theorem connect_eq (endpoint : Endpoint) :
    network.connect endpoint = network.openTransport endpoint endpoint.inbound
      (endpoint.outbound network.tasks.length) := by
  cases endpoint <;> rfl

/-! ### Queues -/

@[simp] theorem queue_setQueue (place other : Place) (letters : List Letter) :
    (network.setQueue place letters).queue other =
      if other = place then letters else network.queue other := by
  simp only [queue, setQueue, Function.update_apply]
  split <;> rfl

@[simp] theorem sent_setQueue (place : Place) (letters : List Letter) :
    (network.setQueue place letters).sent = network.sent := rfl

@[simp] theorem received_setQueue (place : Place) (letters : List Letter) :
    (network.setQueue place letters).received = network.received := rfl

/-- A queue which is made is empty, as is one which is not there. -/
theorem entry_spec (network : Network) (place : Place) :
    (∀ other, (network.entry place).queue other = network.queue other) ∧
      (network.entry place).tasks = network.tasks ∧
      (network.entry place).transports = network.transports ∧
      (network.entry place).sent = network.sent ∧
      (network.entry place).received = network.received := by
  unfold entry
  split
  next => exact ⟨fun _ => rfl, rfl, rfl, rfl, rfl⟩
  next isNone =>
    refine ⟨fun other => ?_, rfl, rfl, rfl, rfl⟩
    rw [queue_setQueue]
    split
    next same => rw [same, queue, isNone]; rfl
    next => rfl

/-! ### The task of an endpoint -/

def task? (network : Network) (endpoint : Endpoint) : Option Task :=
  network.tasks.find? fun task => decide (task.endpoint = endpoint)

/-- Every endpoint has at most one task, and everything goes through its
queues. -/
structure Wired (network : Network) : Prop where
  apart : (network.tasks.map Task.endpoint).Nodup
  outbound : ∀ (number : Nat) (task : Task),
    network.tasks[number]? = some task →
    task.outbound = task.endpoint.outbound number
  forward : ∀ task ∈ network.tasks, ∀ forward, task.forward = some forward →
    forward.inbound = task.endpoint.counterpart.inbound
  transport : ∀ endpoint transport,
    network.transports.get? endpoint = some transport →
    transport.inboundReceiver = endpoint.inbound ∧
      ∃ task ∈ network.tasks, task.endpoint = endpoint ∧
        transport.outboundSender = task.outbound
  unused : ∀ endpoint number,
    (∀ task ∈ network.tasks, task.endpoint ≠ endpoint) →
    network.queue (endpoint.outbound number) = []
  signed : ∀ endpoint, ∀ letter ∈ network.sent endpoint,
    letter.sender = endpoint

theorem Wired.new : Network.new.Wired where
  apart := List.nodup_nil
  outbound _ _ found := by cases found
  forward _ member := by cases member
  transport _ _ found := by cases found
  unused endpoint number _ := by cases endpoint <;> rfl
  signed _ _ member := by cases member

theorem task?_spec {endpoint : Endpoint} {task : Task}
    (found : network.task? endpoint = some task) :
    task ∈ network.tasks ∧ task.endpoint = endpoint := by
  unfold task? at found
  exact ⟨List.mem_of_find?_eq_some found, by simpa using List.find?_some found⟩

theorem task?_eq_none {endpoint : Endpoint} :
    network.task? endpoint = none ↔
      ∀ task ∈ network.tasks, task.endpoint ≠ endpoint := by
  simp [task?, List.find?_eq_none]

theorem task?_endpoint (apart : (network.tasks.map Task.endpoint).Nodup)
    {task : Task} (member : task ∈ network.tasks) :
    network.task? task.endpoint = some task := by
  cases found : network.task? task.endpoint with
  | none => exact absurd rfl (task?_eq_none.mp found task member)
  | some other =>
      obtain ⟨otherMember, same⟩ := task?_spec found
      rw [List.inj_on_of_nodup_map apart otherMember member same]

def belt (network : Network) (endpoint : Endpoint) : Conveyor Letter where
  sent := network.sent endpoint
  outbound := (network.task? endpoint).elim [] fun task =>
    network.queue task.outbound
  line := (network.task? endpoint).elim [] Task.line
  carried := (network.task? endpoint).bind fun task =>
    task.forward.bind Forward.carried
  inbound := network.queue endpoint.counterpart.inbound
  received := network.received endpoint.counterpart
  broken := (network.task? endpoint).elim false fun task =>
    decide (task.stage = .ended)

@[simp] theorem belt_new (endpoint : Endpoint) :
    new.belt endpoint = .empty := by
  cases endpoint <;> rfl

/-! ### A change of one task -/

section

variable {number : Nat} {task changed : Task}

theorem getElem?_setTask (found : network.tasks[number]? = some task)
    (other : Nat) :
    (network.setTask number changed).tasks[other]? =
      if number = other then some changed else network.tasks[other]? := by
  have below : number < network.tasks.length :=
    (List.getElem?_eq_some_iff.mp found).1
  simp only [setTask, List.getElem?_set, below, if_true]

theorem endpoints_setTask (found : network.tasks[number]? = some task)
    (keeps : changed.endpoint = task.endpoint) :
    (network.setTask number changed).tasks.map Task.endpoint =
      network.tasks.map Task.endpoint := by
  ext1 other
  rw [List.getElem?_map, List.getElem?_map, getElem?_setTask found]
  split
  next same =>
    subst same
    rw [found]
    exact congrArg some keeps
  next => rfl

theorem mem_setTask {other : Task}
    (member : other ∈ (network.setTask number changed).tasks) :
    other ∈ network.tasks ∨ other = changed :=
  List.mem_or_eq_of_mem_set member

theorem task?_setTask (apart : (network.tasks.map Task.endpoint).Nodup)
    (found : network.tasks[number]? = some task)
    (keeps : changed.endpoint = task.endpoint) (endpoint : Endpoint) :
    (network.setTask number changed).task? endpoint =
      if task.endpoint = endpoint then some changed
      else network.task? endpoint := by
  have still :
      ((network.setTask number changed).tasks.map Task.endpoint).Nodup := by
    rwa [endpoints_setTask found keeps]
  split
  next same =>
    have isChanged :
        (network.setTask number changed).tasks[number]? = some changed :=
      (getElem?_setTask found number).trans (if_pos rfl)
    have isTask := task?_endpoint still (List.mem_of_getElem? isChanged)
    rwa [keeps, same] at isTask
  next different =>
    cases isOther : network.task? endpoint with
    | none =>
        rw [task?_eq_none] at isOther ⊢
        intro other member
        rcases mem_setTask member with old | rfl
        · exact isOther other old
        · exact keeps ▸ different
    | some other =>
        obtain ⟨member, rfl⟩ := task?_spec isOther
        obtain ⟨index, atIndex⟩ := List.mem_iff_getElem?.mp member
        have elsewhere : number ≠ index := by
          rintro rfl
          cases found.symm.trans atIndex
          exact different rfl
        apply task?_endpoint still
        apply List.mem_of_getElem?
        rw [getElem?_setTask found, if_neg elsewhere]
        exact atIndex

theorem Wired.setTask (wired : network.Wired)
    (found : network.tasks[number]? = some task)
    (keeps : changed.endpoint = task.endpoint)
    (outbound : changed.outbound = task.outbound)
    (forward : ∀ forward, changed.forward = some forward →
      forward.inbound = task.endpoint.counterpart.inbound) :
    (network.setTask number changed).Wired where
  apart := by
    rw [endpoints_setTask found keeps]
    exact wired.apart
  outbound other opened isOpened := by
    rw [getElem?_setTask found] at isOpened
    split at isOpened
    next same =>
      subst same
      cases isOpened
      rw [outbound, keeps]
      exact wired.outbound _ task found
    next => exact wired.outbound other opened isOpened
  forward opened member sink isForward := by
    rcases mem_setTask member with old | rfl
    · exact wired.forward opened old sink isForward
    · rw [keeps]
      exact forward sink isForward
  transport endpoint transport isTransport := by
    obtain ⟨inbound, opened, member, isEndpoint, isOutbound⟩ :=
      wired.transport endpoint transport isTransport
    refine ⟨inbound, ?_⟩
    obtain ⟨index, isOpened⟩ := List.mem_iff_getElem?.mp member
    have moved : (network.setTask number changed).tasks[index]? =
        if number = index then some changed else network.tasks[index]? :=
      getElem?_setTask found index
    split at moved
    next same =>
      subst same
      cases found.symm.trans isOpened
      exact ⟨changed, List.mem_of_getElem? moved, keeps.trans isEndpoint,
        isOutbound.trans outbound.symm⟩
    next =>
      exact ⟨opened, List.mem_of_getElem? (moved.trans isOpened), isEndpoint,
        isOutbound⟩
  unused endpoint other absent := by
    apply wired.unused endpoint other
    intro opened member
    have listed : opened.endpoint ∈ network.tasks.map Task.endpoint :=
      List.mem_map_of_mem member
    rw [← endpoints_setTask found keeps] at listed
    obtain ⟨next, isNext, same⟩ := List.mem_map.mp listed
    exact same ▸ absent next isNext
  signed := wired.signed

end

/-! ### The places of the queues -/

theorem Wired.inbound_ne (wired : network.Wired) {task : Task}
    (member : task ∈ network.tasks) (endpoint : Endpoint) :
    endpoint.inbound ≠ task.outbound := by
  obtain ⟨number, found⟩ := List.mem_iff_getElem?.mp member
  rw [wired.outbound number task found]
  exact endpoint.inbound_ne_outbound _ _

theorem Wired.outbound_inj (wired : network.Wired) {task other : Task}
    (member : task ∈ network.tasks) (otherMember : other ∈ network.tasks)
    (same : task.outbound = other.outbound) :
    task.endpoint = other.endpoint := by
  obtain ⟨number, found⟩ := List.mem_iff_getElem?.mp member
  obtain ⟨index, atIndex⟩ := List.mem_iff_getElem?.mp otherMember
  rw [wired.outbound number task found, wired.outbound index other atIndex]
    at same
  exact Endpoint.eq_of_outbound same

theorem belt_of_task {endpoint : Endpoint} {task : Task}
    (found : network.task? endpoint = some task) :
    network.belt endpoint =
      { sent := network.sent endpoint
        outbound := network.queue task.outbound
        line := task.line
        carried := task.forward.bind Forward.carried
        inbound := network.queue endpoint.counterpart.inbound
        received := network.received endpoint.counterpart
        broken := decide (task.stage = .ended) } := by
  simp only [belt, found, Option.elim_some, Option.bind_some]

theorem belt_sent (sent : Endpoint → List Letter) (endpoint : Endpoint) :
    { network with sent := sent }.belt endpoint =
      { network.belt endpoint with sent := sent endpoint } := rfl

theorem belt_received (received : Endpoint → List Letter)
    (endpoint : Endpoint) :
    { network with received := received }.belt endpoint =
      { network.belt endpoint with
        received := received endpoint.counterpart } := rfl

theorem belt_congr {next : Network} {endpoint : Endpoint}
    (task : next.task? endpoint = network.task? endpoint)
    (outbound : ∀ task, network.task? endpoint = some task →
      next.queue task.outbound = network.queue task.outbound)
    (inbound : next.queue endpoint.counterpart.inbound =
      network.queue endpoint.counterpart.inbound)
    (sent : next.sent endpoint = network.sent endpoint)
    (received : next.received endpoint.counterpart =
      network.received endpoint.counterpart) :
    next.belt endpoint = network.belt endpoint := by
  cases found : network.task? endpoint with
  | none => simp only [belt, task, found, inbound, sent, received, Option.elim]
  | some opened =>
      rw [belt_of_task found, belt_of_task (task.trans found), inbound, sent,
        received, outbound opened found]

/-! ### Every event is a move on the conveyor of its endpoint -/

def moves (network : Network) (endpoint : Endpoint) :
    Event → List (Conveyor.Move Letter)
  | .connect _ | .drop _ | .reach _ | .accept _ => []
  | .send sender content =>
      match network.transports.get? sender with
      | none => []
      | some transport =>
          if sender = endpoint ∧
              network.hasReceiver transport.outboundSender = true then
            [.push ⟨endpoint, content⟩]
          else []
  | .recv receiver =>
      if receiver.counterpart = endpoint ∧
          (network.transports.get? receiver).isSome = true then [.take]
      else []
  | .pull number =>
      match network.tasks[number]? with
      | none => []
      | some task =>
          if task.endpoint = endpoint ∧ task.stage = .streaming then [.pull]
          else []
  | .carry number =>
      match network.tasks[number]? with
      | none => []
      | some task =>
          if task.endpoint = endpoint ∧ task.forward.isSome = true then [.carry]
          else []
  | .deposit number =>
      match network.tasks[number]? with
      | none => []
      | some task =>
          if task.endpoint = endpoint ∧ task.forward.isSome = true then
            [.deposit]
          else []
  | .lose number kept =>
      match network.tasks[number]? with
      | none => []
      | some task => if task.endpoint = endpoint then [.lose kept] else []

/-- A step keeps to the queues of its endpoint, and moves a message on its
conveyor. -/
structure Moves (bufferCapacity : Nat) (network next : Network)
    (event : Event) : Prop where
  wired : next.Wired
  belt : ∀ endpoint, next.belt endpoint =
    (network.belt endpoint).run bufferCapacity (network.moves endpoint event)

namespace Moves

variable {next : Network} {event : Event}

theorem none (wired : next.Wired)
    (isMoves : ∀ endpoint, network.moves endpoint event = [])
    (same : ∀ endpoint, next.belt endpoint = network.belt endpoint) :
    Moves bufferCapacity network next event where
  wired := wired
  belt endpoint := by rw [isMoves, same, Conveyor.run_nil]

theorem one {move : Conveyor.Move Letter} {home : Endpoint}
    (wired : next.Wired)
    (isMoves : ∀ endpoint, network.moves endpoint event =
      if home = endpoint then [move] else [])
    (own : next.belt home = (network.belt home).step bufferCapacity move)
    (others : ∀ endpoint, home ≠ endpoint →
      next.belt endpoint = network.belt endpoint) :
    Moves bufferCapacity network next event where
  wired := wired
  belt endpoint := by
    rw [isMoves]
    split
    next same =>
      subst same
      exact own
    next different => exact others endpoint different

end Moves

theorem Wired.setQueue (wired : network.Wired) {place : Place}
    (letters : List Letter)
    (used : ∀ endpoint number,
      (∀ task ∈ network.tasks, task.endpoint ≠ endpoint) →
      endpoint.outbound number ≠ place) :
    (network.setQueue place letters).Wired where
  apart := wired.apart
  outbound := wired.outbound
  forward := wired.forward
  transport := wired.transport
  unused endpoint number absent := by
    rw [queue_setQueue, if_neg (used endpoint number absent)]
    exact wired.unused endpoint number absent
  signed := wired.signed

theorem Wired.used (wired : network.Wired) {task : Task}
    (member : task ∈ network.tasks) (endpoint : Endpoint) (number : Nat)
    (absent : ∀ task ∈ network.tasks, task.endpoint ≠ endpoint) :
    endpoint.outbound number ≠ task.outbound := by
  obtain ⟨index, found⟩ := List.mem_iff_getElem?.mp member
  rw [wired.outbound index task found]
  exact fun same => absent task member (Endpoint.eq_of_outbound same.symm)

section

variable {number : Nat} {task changed : Task} {place : Place}
  {letters : List Letter} {endpoint : Endpoint}

theorem belt_setInbound (wired : network.Wired) (endpoint other : Endpoint) :
    (network.setQueue endpoint.counterpart.inbound letters).belt other =
      if endpoint = other then { network.belt other with inbound := letters }
      else network.belt other := by
  have outbound (task : Task) (isTask : network.task? other = some task) :
      (network.setQueue endpoint.counterpart.inbound letters).queue
        task.outbound = network.queue task.outbound := by
    rw [queue_setQueue,
      if_neg (wired.inbound_ne (task?_spec isTask).1 _).symm]
  split
  next same =>
    subst same
    cases isTask : network.task? endpoint with
    | none =>
        have still : (network.setQueue endpoint.counterpart.inbound
          letters).task? endpoint = none := isTask
        simp [belt, isTask, still]
    | some task =>
        have still : (network.setQueue endpoint.counterpart.inbound
          letters).task? endpoint = some task := isTask
        rw [belt_of_task still, belt_of_task isTask, outbound task isTask]
        simp
  next different =>
    refine belt_congr rfl outbound ?_ rfl rfl
    rw [queue_setQueue, if_neg]
    intro same
    exact different (Endpoint.counterpart_inj.mp
      (Endpoint.inbound_inj.mp same)).symm

theorem belt_setOutbound (wired : network.Wired)
    (member : task ∈ network.tasks) (other : Endpoint) :
    (network.setQueue task.outbound letters).belt other =
      if task.endpoint = other then
        { network.belt other with outbound := letters }
      else network.belt other := by
  split
  next same =>
    subst same
    have isTask := task?_endpoint wired.apart member
    have still : (network.setQueue task.outbound letters).task?
      task.endpoint = some task := isTask
    rw [belt_of_task still, belt_of_task isTask]
    simp [wired.inbound_ne member]
  next different =>
    refine belt_congr rfl (fun opened isOpened => ?_) ?_ rfl rfl
    · obtain ⟨openedMember, rfl⟩ := task?_spec isOpened
      rw [queue_setQueue, if_neg]
      exact fun same =>
        different (wired.outbound_inj openedMember member same).symm
    · rw [queue_setQueue, if_neg (wired.inbound_ne member _)]

theorem belt_setTask (apart : (network.tasks.map Task.endpoint).Nodup)
    (found : network.tasks[number]? = some task)
    (keeps : changed.endpoint = task.endpoint)
    (different : task.endpoint ≠ endpoint) :
    (network.setTask number changed).belt endpoint = network.belt endpoint := by
  have same := task?_setTask apart found keeps endpoint
  rw [if_neg different] at same
  exact belt_congr same (fun _ _ => rfl) rfl rfl rfl

theorem belt_changed (apart : (network.tasks.map Task.endpoint).Nodup)
    (found : network.tasks[number]? = some task)
    (keeps : changed.endpoint = task.endpoint) :
    (network.setTask number changed).belt task.endpoint =
      { sent := network.sent task.endpoint
        outbound := network.queue changed.outbound
        line := changed.line
        carried := changed.forward.bind Forward.carried
        inbound := network.queue task.endpoint.counterpart.inbound
        received := network.received task.endpoint.counterpart
        broken := decide (changed.stage = .ended) } := by
  have isTask := task?_setTask apart found keeps task.endpoint
  rw [if_pos rfl] at isTask
  exact belt_of_task isTask

theorem belt_unchanged (apart : (network.tasks.map Task.endpoint).Nodup)
    (found : network.tasks[number]? = some task)
    (keeps : changed.endpoint = task.endpoint)
    (outbound : changed.outbound = task.outbound)
    (line : changed.line = task.line)
    (carried : changed.forward.bind Forward.carried =
      task.forward.bind Forward.carried)
    (ended : changed.stage = .ended ↔ task.stage = .ended)
    (endpoint : Endpoint) :
    (network.setTask number changed).belt endpoint = network.belt endpoint := by
  by_cases same : task.endpoint = endpoint
  · subst same
    have isTask := task?_endpoint apart (List.mem_of_getElem? found)
    rw [belt_of_task isTask, belt_changed apart found keeps, outbound, line,
      carried, decide_eq_decide.mpr ended]
  · exact belt_setTask apart found keeps same

end

/-! ### The events of a task -/

theorem Wired.reach (wired : network.Wired) (number : Nat) :
    Moves bufferCapacity network (network.reach number) (.reach number) := by
  unfold Network.reach
  cases found : network.tasks[number]? with
  | none => exact .none wired (fun _ => rfl) fun _ => rfl
  | some task =>
      have member := List.mem_of_getElem? found
      simp only
      split
      next connecting =>
        refine .none ?_ (fun _ => rfl) ?_
        · exact wired.setTask found rfl rfl (wired.forward task member)
        · refine belt_unchanged wired.apart found ?_ ?_ ?_ ?_ ?_
          · rfl
          · rfl
          · rfl
          · rfl
          · simp [connecting]
      next => exact .none wired (fun _ => rfl) fun _ => rfl

theorem Wired.entry (wired : network.Wired) (place : Place) :
    (network.entry place).Wired := by
  obtain ⟨queues, tasks, transports, sent, -⟩ := entry_spec network
    place
  exact {
    apart := by rw [tasks]; exact wired.apart
    outbound := by rw [tasks]; exact wired.outbound
    forward := by rw [tasks]; exact wired.forward
    transport := by rw [tasks, transports]; exact wired.transport
    unused := by
      intro endpoint number
      rw [tasks, queues]
      exact wired.unused endpoint number
    signed := by rw [sent]; exact wired.signed }

theorem belt_entry (place : Place) (endpoint : Endpoint) :
    (network.entry place).belt endpoint = network.belt endpoint := by
  obtain ⟨queues, tasks, -, sent, received⟩ := entry_spec network
    place
  apply belt_congr
  · rw [task?, task?, tasks]
  · exact fun _ _ => queues _
  · exact queues _
  · rw [sent]
  · rw [received]

theorem Wired.accept (wired : network.Wired) (number : Nat) :
    Moves bufferCapacity network (network.accept number) (.accept number) := by
  unfold Network.accept
  cases found : network.tasks[number]? with
  | none => exact .none wired (fun _ => rfl) fun _ => rfl
  | some task =>
      have member := List.mem_of_getElem? found
      simp only [Endpoint.serve_metadata]
      split
      next => exact .none wired (fun _ => rfl) fun _ => rfl
      next fresh =>
        have free : task.forward = none :=
          Option.not_isSome_iff_eq_none.mp fun taken => fresh (.inr taken)
        have made := wired.entry task.endpoint.counterpart.inbound
        have still : (network.entry
            task.endpoint.counterpart.inbound).tasks[number]? = some task := by
          rw [(entry_spec _ _).2.1, found]
        refine .none ?_ (fun _ => rfl) fun endpoint => ?_
        · refine made.setTask still ?_ ?_ ?_
          · rfl
          · rfl
          · rintro forward ⟨⟩
            rfl
        · refine Eq.trans ?_
            (belt_entry task.endpoint.counterpart.inbound endpoint)
          refine belt_unchanged made.apart still ?_ ?_ ?_ ?_ ?_ endpoint
          · rfl
          · rfl
          · rfl
          · rw [free]
            rfl
          · exact Iff.rfl

theorem Wired.pull (wired : network.Wired) (number : Nat) :
    Moves bufferCapacity network (network.pull number) (.pull number) := by
  unfold Network.pull
  cases found : network.tasks[number]? with
  | none => exact .none wired (fun _ => by simp [moves, found]) fun _ => rfl
  | some task =>
      have member := List.mem_of_getElem? found
      have isTask := task?_endpoint wired.apart member
      simp only
      split
      next streaming =>
        have isMoves (endpoint : Endpoint) :
            network.moves endpoint (.pull number) =
              if task.endpoint = endpoint then [.pull] else [] := by
          simp [moves, found, streaming]
        cases queued : network.queue task.outbound with
        | nil =>
            refine .one wired isMoves ?_ fun _ _ => rfl
            simp [belt_of_task isTask, Conveyor.step, Conveyor.pull, queued]
        | cons letter rest =>
            have set := wired.setQueue rest (wired.used member)
            simp only
            refine .one ?_ isMoves ?_ fun endpoint different => ?_
            · exact set.setTask found rfl rfl (wired.forward task member)
            · rw [belt_of_task isTask, belt_changed set.apart found]
              · simp [Conveyor.step, Conveyor.pull, queued, streaming,
                  wired.inbound_ne member]
              · rfl
            · rw [belt_setTask set.apart found ?_ different,
                belt_setOutbound wired member, if_neg different]
              rfl
      next other =>
        refine .none wired (fun endpoint => ?_) fun _ => rfl
        simp [moves, found, other]

theorem Wired.carry (wired : network.Wired) (number : Nat) :
    Moves bufferCapacity network (network.carry number) (.carry number) := by
  unfold Network.carry
  cases found : network.tasks[number]? with
  | none => exact .none wired (fun _ => by simp [moves, found]) fun _ => rfl
  | some task =>
      have member := List.mem_of_getElem? found
      have isTask := task?_endpoint wired.apart member
      simp only
      cases isForward : task.forward with
      | none =>
          refine .none wired (fun endpoint => ?_) fun _ => rfl
          simp [moves, found, isForward]
      | some forward =>
          have isMoves (endpoint : Endpoint) :
              network.moves endpoint (.carry number) =
                if task.endpoint = endpoint then [.carry] else [] := by
            simp [moves, found, isForward]
          split
          next inbound letter rest isFree isLine =>
            cases isFree
            refine .one ?_ isMoves ?_ fun endpoint different => ?_
            · refine wired.setTask found ?_ ?_ ?_
              · rfl
              · rfl
              · rintro _ ⟨⟩
                have isInbound := wired.forward task member _ isForward
                exact isInbound
            · rw [belt_of_task isTask, belt_changed wired.apart found]
              · simp [Conveyor.step, Conveyor.carry, isForward, isLine]
              · rfl
            · rw [belt_setTask wired.apart found ?_ different]
              rfl
          next other =>
            refine .one wired isMoves ?_ fun _ _ => rfl
            rw [belt_of_task isTask]
            obtain ⟨inbound, carried⟩ := forward
            cases carried with
            | some letter => simp [Conveyor.step, Conveyor.carry, isForward]
            | none =>
                cases isLine : task.line with
                | nil => simp [Conveyor.step, Conveyor.carry, isForward]
                | cons letter rest =>
                    exact (other inbound letter rest rfl isLine).elim

theorem Wired.deposit (wired : network.Wired) (number : Nat) :
    Moves bufferCapacity network (network.deposit bufferCapacity number)
      (.deposit number) := by
  unfold Network.deposit
  cases found : network.tasks[number]? with
  | none => exact .none wired (fun _ => by simp [moves, found]) fun _ => rfl
  | some task =>
      have member := List.mem_of_getElem? found
      have isTask := task?_endpoint wired.apart member
      simp only
      cases isForward : task.forward with
      | none =>
          refine .none wired (fun endpoint => ?_) fun _ => rfl
          simp [moves, found, isForward]
      | some forward =>
          have isMoves (endpoint : Endpoint) :
              network.moves endpoint (.deposit number) =
                if task.endpoint = endpoint then [.deposit] else [] := by
            simp [moves, found, isForward]
          have isInbound := wired.forward task member forward isForward
          obtain ⟨inbound, carried⟩ := forward
          simp only at isInbound
          subst isInbound
          cases carried with
          | none =>
              refine .one wired isMoves ?_ fun _ _ => rfl
              rw [belt_of_task isTask]
              simp [Conveyor.step, Conveyor.deposit, isForward]
          | some letter =>
              simp only
              split
              next room =>
                have unused (endpoint : Endpoint) (index : Nat)
                    (_ : ∀ task ∈ network.tasks, task.endpoint ≠ endpoint) :
                    endpoint.outbound index ≠
                      task.endpoint.counterpart.inbound :=
                  (Endpoint.inbound_ne_outbound _ _ _).symm
                have set := wired.setQueue (network.queue
                  task.endpoint.counterpart.inbound ++ [letter]) unused
                refine .one ?_ isMoves ?_ fun endpoint different => ?_
                · refine set.setTask found ?_ ?_ ?_
                  · rfl
                  · rfl
                  · rintro _ ⟨⟩
                    rfl
                · rw [belt_of_task isTask, belt_changed set.apart found]
                  · simp [Conveyor.step, Conveyor.deposit, isForward, room,
                      (wired.inbound_ne member _).symm]
                  · rfl
                · rw [belt_setTask set.apart found ?_ different,
                    belt_setInbound wired, if_neg different]
                  rfl
              next full =>
                refine .one wired isMoves ?_ fun _ _ => rfl
                rw [belt_of_task isTask]
                simp [Conveyor.step, Conveyor.deposit, isForward, full]

theorem Wired.lose (wired : network.Wired) (number kept : Nat) :
    Moves bufferCapacity network (network.lose number kept)
      (.lose number kept) := by
  unfold Network.lose
  cases found : network.tasks[number]? with
  | none => exact .none wired (fun _ => by simp [moves, found]) fun _ => rfl
  | some task =>
      have member := List.mem_of_getElem? found
      have isMoves (endpoint : Endpoint) :
          network.moves endpoint (.lose number kept) =
            if task.endpoint = endpoint then [.lose kept] else [] := by
        simp only [moves, found]
      simp only
      refine .one ?_ isMoves ?_ fun endpoint different => ?_
      · exact wired.setTask found rfl rfl (wired.forward task member)
      · rw [belt_of_task (task?_endpoint wired.apart member),
          belt_changed wired.apart found]
        · simp [Conveyor.step, Conveyor.lose]
        · rfl
      · rw [belt_setTask wired.apart found ?_ different]
        rfl

/-! ### The events of an endpoint -/

section

variable {endpoint : Endpoint} {inbound outbound : Place}

theorem Wired.spawn (wired : network.Wired)
    (fresh : ∀ task ∈ network.tasks, task.endpoint ≠ endpoint) :
    (network.spawn endpoint endpoint.inbound
      (endpoint.outbound network.tasks.length)).Wired where
  apart := by
    simp only [Network.spawn, List.map_append, List.map_cons, List.map_nil]
    refine List.nodup_append.mpr ⟨wired.apart, List.nodup_singleton _, ?_⟩
    intro old isOld new isNew
    obtain ⟨task, member, rfl⟩ := List.mem_map.mp isOld
    rw [List.mem_singleton.mp isNew]
    exact fresh task member
  outbound number task found := by
    simp only [Network.spawn] at found
    rcases Nat.lt_or_ge number network.tasks.length with below | above
    · rw [List.getElem?_append_left below] at found
      exact wired.outbound number task found
    · rw [List.getElem?_append_right above] at found
      rw [List.getElem?_singleton] at found
      split at found
      next atEnd =>
        cases found
        rw [Nat.le_antisymm (Nat.sub_eq_zero_iff_le.mp atEnd) above]
      next => cases found
  forward task member forward isForward := by
    rcases List.mem_append.mp member with old | last
    · exact wired.forward task old forward isForward
    · rw [List.mem_singleton.mp last] at isForward
      cases isForward
  transport other transport held := by
    simp only [Network.spawn, IndexMap.get?_insert] at held
    split at held
    next same =>
      subst same
      cases held
      exact ⟨rfl, _, List.mem_append_right _ (List.mem_singleton_self _), rfl,
        rfl⟩
    next =>
      obtain ⟨isInbound, task, member, isTask⟩ :=
        wired.transport other transport held
      exact ⟨isInbound, task, List.mem_append_left _ member, isTask⟩
  unused other number absent :=
    wired.unused other number fun task member =>
      absent task (List.mem_append_left _ member)
  signed := wired.signed

theorem belt_spawn (empty : network.queue outbound = []) (other : Endpoint) :
    (network.spawn endpoint inbound outbound).belt other =
      network.belt other := by
  have isTask : (network.spawn endpoint inbound outbound).task? other =
      (network.task? other).or
        (if endpoint = other then some {
          endpoint := endpoint, outbound := outbound, stage := .connecting
          line := [], forward := none } else none) := by
    simp only [task?, Network.spawn, List.find?_append, List.find?_singleton,
      decide_eq_true_eq]
  cases found : network.task? other with
  | some task =>
      rw [found, Option.some_or] at isTask
      rw [belt_of_task isTask, belt_of_task found]
      rfl
  | none =>
      rw [found, Option.none_or] at isTask
      split at isTask
      next same =>
        subst same
        have still : (network.spawn endpoint inbound outbound).queue outbound =
          [] := empty
        rw [belt_of_task isTask, still]
        simp only [belt, found]
        rfl
      next =>
        exact belt_congr (isTask.trans found.symm) (fun _ _ => rfl) rfl rfl rfl

end

theorem Wired.connect (wired : network.Wired) {endpoint : Endpoint}
    (fresh : ∀ task ∈ network.tasks, task.endpoint ≠ endpoint) :
    Moves bufferCapacity network (network.connect endpoint)
      (.connect endpoint) := by
  let started := (network.entry endpoint.inbound).entry
    (endpoint.outbound network.tasks.length)
  have made : started.Wired := (wired.entry _).entry _
  have tasks : started.tasks = network.tasks :=
    (entry_spec _ _).2.1.trans (entry_spec _ _).2.1
  have connected : network.connect endpoint = started.spawn endpoint
      endpoint.inbound (endpoint.outbound started.tasks.length) := by
    rw [connect_eq, tasks]
    rfl
  have unmade : ∀ task ∈ started.tasks, task.endpoint ≠ endpoint := by
    rwa [tasks]
  rw [connected]
  refine .none (made.spawn unmade) (fun _ => rfl) fun other => ?_
  rw [belt_spawn (made.unused endpoint _ unmade)]
  exact (belt_entry _ other).trans (belt_entry _ other)

theorem Wired.record (wired : network.Wired) (letter : Letter) :
    { network with
      sent := Function.update network.sent letter.sender
        (network.sent letter.sender ++ [letter]) }.Wired := by
  refine { wired with signed := fun endpoint other isSent => ?_ }
  simp only [Function.update_apply] at isSent
  split at isSent
  next same =>
    rcases List.mem_append.mp isSent with before | last
    · exact same ▸ wired.signed _ other before
    · rw [List.mem_singleton.mp last, same]
  next => exact wired.signed endpoint other isSent

theorem Wired.drop (wired : network.Wired) (endpoint : Endpoint) :
    Moves bufferCapacity network
      { network with transports := network.transports.swapRemove endpoint }
      (.drop endpoint) := by
  refine .none { wired with transport := ?_ } (fun _ => rfl) fun _ => rfl
  intro other transport held
  simp only [IndexMap.get?_swapRemove] at held
  split at held
  next => cases held
  next => exact wired.transport other transport held

theorem Wired.recv (wired : network.Wired) (receiver : Endpoint) :
    Moves bufferCapacity network (network.recv receiver).2
      (.recv receiver) := by
  unfold Network.recv
  cases held : network.transports.get? receiver with
  | none =>
      refine .none wired (fun endpoint => ?_) fun _ => rfl
      simp [moves, held]
  | some transport =>
      have isMoves (endpoint : Endpoint) :
          network.moves endpoint (.recv receiver) =
            if receiver.counterpart = endpoint then [.take] else [] := by
        simp [moves, held]
      have isInbound := (wired.transport receiver transport held).1
      simp only [isInbound]
      cases queued : network.queue receiver.inbound with
      | nil =>
          refine .one wired isMoves ?_ fun _ _ => rfl
          simp [belt, Conveyor.step, Conveyor.take, queued]
      | cons letter rest =>
          have unused (endpoint : Endpoint) (number : Nat)
              (_ : ∀ task ∈ network.tasks, task.endpoint ≠ endpoint) :
              endpoint.outbound number ≠ receiver.inbound :=
            (Endpoint.inbound_ne_outbound _ _ _).symm
          have belts (endpoint : Endpoint) :
              (network.setQueue receiver.inbound rest).belt endpoint =
                if receiver.counterpart = endpoint then
                  { network.belt endpoint with inbound := rest }
                else network.belt endpoint := by
            rw [← belt_setInbound wired, Endpoint.counterpart_counterpart]
          refine .one { wired.setQueue rest unused with } isMoves ?_
            fun endpoint different => ?_
          · refine (belt_received _ _).trans ?_
            rw [belts, if_pos rfl]
            simp [belt, Conveyor.step, Conveyor.take, queued]
          · have elsewhere : endpoint.counterpart ≠ receiver := by
              rintro rfl
              exact different (Endpoint.counterpart_counterpart endpoint)
            refine (belt_received _ _).trans ?_
            rw [belts, if_neg different, Function.update_of_ne elsewhere]
            rfl

theorem Wired.send (wired : network.Wired) (sender : Endpoint)
    (content : Bytes) :
    Moves bufferCapacity network
      (network.step bufferCapacity (.send sender content))
      (.send sender content) := by
  simp only [Network.step, Network.send]
  cases held : network.transports.get? sender with
  | none =>
      refine .none wired (fun endpoint => ?_) fun _ => rfl
      simp [moves, held]
  | some transport =>
      obtain ⟨-, task, member, rfl, isOutbound⟩ :=
        wired.transport sender transport held
      have isTask := task?_endpoint wired.apart member
      simp only [isOutbound]
      by_cases receiver : network.hasReceiver task.outbound = true
      · have isMoves (endpoint : Endpoint) :
            network.moves endpoint (.send task.endpoint content) =
              if task.endpoint = endpoint then
                [.push ⟨task.endpoint, content⟩] else [] := by
          simp only [moves, held, isOutbound, receiver, and_true]
          split
          next same => rw [same]
          next => rfl
        have isQueue : (network.belt task.endpoint).outbound =
            network.queue task.outbound := by
          rw [belt_of_task isTask]
        rw [if_pos receiver]
        by_cases room : (network.queue task.outbound).length < bufferCapacity
        · rw [if_pos room]
          simp only
          have set := wired.setQueue (network.queue task.outbound ++
            [⟨task.endpoint, content⟩]) (wired.used member)
          refine .one (set.record ⟨_, content⟩) isMoves ?_
            fun endpoint different => ?_
          · refine (belt_sent _ _).trans ?_
            rw [belt_setOutbound wired member, if_pos rfl,
              Function.update_self, Conveyor.step, Conveyor.push, isQueue,
              if_pos room]
            rfl
          · refine (belt_sent _ _).trans ?_
            rw [belt_setOutbound wired member, if_neg different,
              Function.update_of_ne (Ne.symm different)]
            rfl
        · rw [if_neg room]
          refine .one wired isMoves ?_ fun _ _ => rfl
          rw [Conveyor.step, Conveyor.push, isQueue, if_neg room]
      · rw [if_neg receiver]
        refine .none wired (fun endpoint => ?_) fun _ => rfl
        simp [moves, held, isOutbound, receiver]

theorem Wired.step (wired : network.Wired) {event : Event}
    (once : ∀ endpoint, event = .connect endpoint →
      ∀ task ∈ network.tasks, task.endpoint ≠ endpoint) :
    Moves bufferCapacity network (network.step bufferCapacity event) event := by
  cases event with
  | connect endpoint => exact wired.connect (once endpoint rfl)
  | drop endpoint => exact wired.drop endpoint
  | send sender content => exact wired.send sender content
  | recv receiver => exact wired.recv receiver
  | reach number => exact wired.reach number
  | accept number => exact wired.accept number
  | pull number => exact wired.pull number
  | carry number => exact wired.carry number
  | deposit number => exact wired.deposit number
  | lose number kept => exact wired.lose number kept

end Network

end Malstrom.Kubernetes.Communication
