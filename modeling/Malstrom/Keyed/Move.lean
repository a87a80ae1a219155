import Malstrom.Keyed.Routing
import Malstrom.Keyed.System

namespace Malstrom.Keyed

open Data Operators

variable {K V T VO S L : Type}

/-! What one step can do to one worker.  The handlers of the distributor are
taken apart here once; what a rescale preserves is proved from the moves. -/

/-- The worker after a handler: the messages it took from upstream, its
distributor, and the effects. -/
def Worker.after (current : Worker K V T VO S L)
    (received : List (Message K V T)) (distributor : Distributor K V T)
    (effects : Effects K V T) : Worker K V T VO S L :=
  { current with
    distributor := distributor
    queue := current.queue ++ effects.output
    taken := current.taken ++ received
    handed := current.handed ++ effects.output
    sent := current.sent ++ effects.network }

def arrivalOf (thisWorker : WorkerId)
    (incoming : Option (WorkerId × NetworkMessage K V T))
    (received : List (Message K V T)) : Option (Arrival K V T) :=
  match incoming, received with
  | some (remote, .data message), [] =>
      some ⟨message.content, some message.version, remote⟩
  | none, [.data message] => some ⟨message, none, thisWorker⟩
  | _, _ => none

theorem arrivalOf_cases {thisWorker : WorkerId}
    {incoming : Option (WorkerId × NetworkMessage K V T)}
    {received : List (Message K V T)} {arrival : Arrival K V T}
    (arrives : arrivalOf thisWorker incoming received = some arrival) :
    (∃ version, incoming = some (arrival.sender,
        .data ⟨arrival.message, version⟩) ∧ received = [] ∧
      arrival.version = some version) ∨
      incoming = none ∧ received = [.data arrival.message] ∧
        arrival.version = none := by
  unfold arrivalOf at arrives
  split at arrives
  next remote message =>
    obtain rfl := Option.some.inj arrives
    exact .inl ⟨message.version, rfl, rfl, rfl⟩
  next message =>
    obtain rfl := Option.some.inj arrives
    exact .inr ⟨rfl, rfl, rfl⟩
  next => cases arrives

/-- What a collecting router sends to the new owner in its lifecycle: nothing
where nothing is under collection, else the state and then the buffer. -/
inductive Released (partitioner : WorkerPartitioner K) (remotes : Remotes T)
    (clones : Nat) (router : CollectRouter K V T) :
    CollectRouter K V T → List (WorkerId × NetworkMessage K V T) → Prop
  | idle (idle : router.currentCollect = none) :
      Released partitioner remotes clones router router []
  | released {collect : Collect K} (unwrapped : clones = 0)
      (current : router.currentCollect = some collect)
      (client : partitioner collect.key router.newWorkerSet ∈ remotes) :
      Released partitioner remotes clones router
        { router with buffered := [], currentCollect := none }
        ((partitioner collect.key router.newWorkerSet,
            .acquire ⟨collect.key, collect.collection⟩) ::
          router.buffered.map fun message =>
            (partitioner collect.key router.newWorkerSet,
              .data ⟨message, router.version⟩))

inductive Move [DecidableEq K] [MaybeTime T] (job : Job K V T VO S L)
    (thisWorker : WorkerId) (current : Worker K V T VO S L) :
    Option (WorkerId × NetworkMessage K V T) → List (Message K V T) →
      Option (Message K V T) → Worker K V T VO S L →
      List (WorkerId × NetworkMessage K V T) → Prop
  | quiet {incoming : Option (WorkerId × NetworkMessage K V T)}
      {received : List (Message K V T)} {distributor : Distributor K V T}
      {effects : Effects K V T}
      (sameRouter : distributor.router = current.distributor.router)
      (agree : Remotes.Agree distributor.remotes current.distributor.remotes)
      (quietOutput : ∀ message ∈ effects.output, message.isQuiet = true)
      (quietNetwork : ∀ addressed ∈ effects.network,
        addressed.2.isQuiet = true)
      (quietIncoming : ∀ arrived ∈ incoming, arrived.2.isQuiet = true)
      (quietReceived : ∀ message ∈ received,
        message.data? = none ∧ message.rescale? = none) :
      Move job thisWorker current incoming received none
        (current.after received distributor effects) effects.network
  | kept {incoming : Option (WorkerId × NetworkMessage K V T)}
      {received : List (Message K V T)} {arrival : Arrival K V T}
      {router : MessageRouter K V T}
      (arrives : arrivalOf thisWorker incoming received = some arrival)
      (routed : Routed job.partitioner thisWorker current.distributor.remotes
        arrival current.distributor.router router (some thisWorker)) :
      Move job thisWorker current incoming received none
        (current.after received { current.distributor with router := router }
          { output := [.data arrival.message] }) []
  | buffered {incoming : Option (WorkerId × NetworkMessage K V T)}
      {received : List (Message K V T)} {arrival : Arrival K V T}
      {router : MessageRouter K V T}
      (arrives : arrivalOf thisWorker incoming received = some arrival)
      (routed : Routed job.partitioner thisWorker current.distributor.remotes
        arrival current.distributor.router router none) :
      Move job thisWorker current incoming received none
        (current.after received { current.distributor with router := router }
          {}) []
  | forwarded {incoming : Option (WorkerId × NetworkMessage K V T)}
      {received : List (Message K V T)} {arrival : Arrival K V T}
      {router : MessageRouter K V T} {target : WorkerId}
      (arrives : arrivalOf thisWorker incoming received = some arrival)
      (routed : Routed job.partitioner thisWorker current.distributor.remotes
        arrival current.distributor.router router (some target))
      (other : target ≠ thisWorker)
      (client : target ∈ current.distributor.remotes) :
      Move job thisWorker current incoming received none
        (current.after received { current.distributor with router := router }
          { network := [(target, .data ⟨arrival.message, router.version⟩)] })
        [(target, .data ⟨arrival.message, router.version⟩)]
  | acquire {remote : WorkerId} {acquire : NetworkAcquire K} :
      Move job thisWorker current (some (remote, .acquire acquire)) [] none
        (current.after [] current.distributor
          { output := [.acquire acquire.toAcquire] }) []
  | upgrade {remote : WorkerId} {version : Version} :
      Move job thisWorker current (some (remote, .upgrade version)) [] none
        (current.after []
          { current.distributor with
            remotes := current.distributor.remotes.modify remote fun state =>
              { state with lastVersion := some version } }
          { network := [(remote, .ackUpgrade version)] })
        [(remote, .ackUpgrade version)]
  | ackUpgrade {remote : WorkerId} {version : Version} :
      Move job thisWorker current (some (remote, .ackUpgrade version)) [] none
        (current.after []
          { current.distributor with
            remotes := current.distributor.remotes.modify remote fun state =>
              { state with lastAckVersion := some version } } {}) []
  | rescale {trigger : RescaleMessage} {normal : NormalRouter}
      (waiting : current.distributor.router = .normal normal) :
      Move job thisWorker current none [.rescale trigger] none
        (current.after [.rescale trigger]
          { current.distributor with
            remotes := Distributor.addRemotes current.distributor.remotes
              trigger.workers.items thisWorker
            router := .interrogate (InterrogateRouter.new normal.version
              normal.workerSet trigger job.partitioner) }
          { output := [.interrogate] }) []
  | rescaleCopy {trigger : RescaleMessage}
      (busy : ∀ normal, current.distributor.router ≠ .normal normal) :
      Move job thisWorker current none [.rescale trigger] none
        (current.after [.rescale trigger]
          { current.distributor with
            remotes := Distributor.addRemotes current.distributor.remotes
              trigger.workers.items thisWorker } {}) []
  | interrogated {router : InterrogateRouter K}
      (interrogating : current.distributor.router = .interrogate router)
      (unwrapped : current.clones = 0) :
      Move job thisWorker current none [] none
        (current.after []
          { current.distributor with
            router := .collect (CollectRouter.new router.interrogateMsg.shared
              router.oldWorkerSet router.newWorkerSet router.trigger) } {}) []
  | collectNext {router released : CollectRouter K V T}
      {network : List (WorkerId × NetworkMessage K V T)} {key : K}
      {rest : IndexSet K}
      (collecting : current.distributor.router = .collect router)
      (release : Released job.partitioner current.distributor.remotes
        current.clones router released network)
      (next : released.whitelist.pop = some (key, rest)) :
      Move job thisWorker current none [] none
        (current.after []
          { current.distributor with
            router := .collect { released with
              whitelist := rest
              currentCollect := some (Collect.new key) } }
          { output := [.collect key], network := network }) network
  | concluded {router released : CollectRouter K V T}
      {network : List (WorkerId × NetworkMessage K V T)}
      (collecting : current.distributor.router = .collect router)
      (release : Released job.partitioner current.distributor.remotes
        current.clones router released network)
      (empty : ∀ key, key ∉ released.whitelist) :
      Move job thisWorker current none [] none
        (current.after []
          { current.distributor with
            router := .finished (FinishedRouter.new router.oldWorkerSet
              router.newWorkerSet router.trigger) }
          { network := network ++
              broadcast current.distributor.remotes (.upgrade router.version) })
        (network ++
          broadcast current.distributor.remotes (.upgrade router.version))
  | finished {router : FinishedRouter}
      (finished : current.distributor.router = .finished router)
      (allUpgraded : router.allUpgraded current.distributor.remotes = true) :
      Move job thisWorker current none [] none
        (current.after []
          { current.distributor with
            router := .normal ⟨router.newWorkerSet, router.version⟩
            remotes := current.distributor.remotes.swapRemoveAll
              (router.oldWorkerSet.difference router.newWorkerSet).items }
          { output := [.rescale router.trigger] }) []
  | scheduled (empty : current.queue = []) :
      Move job thisWorker current none [] none
        { current with
          operator := (job.operator.schedule current.operator).1
          downstream := current.downstream ++
            (job.operator.schedule current.operator).2 } []
  | received {message : Message K V T} {rest : List (Message K V T)}
      {distributor : Distributor K V T} {operator : OperatorState K S L}
      {emitted : List (Message K VO T)} {report : Report K S}
      (head : current.queue = message :: rest)
      (receives : job.operator.receive
        (job.operator.schedule current.operator).1 message =
          (operator, emitted, report))
      (reports : distributor = current.distributor.takeReport report) :
      Move job thisWorker current none [] (some message)
        { current with
          distributor := distributor
          queue := rest
          operator := operator
          downstream := current.downstream ++
            (job.operator.schedule current.operator).2 ++ emitted } []
  | sink :
      Move job thisWorker current none [] none
        { current with downstream := current.downstream.tail } []

theorem Move.taken [DecidableEq K] [MaybeTime T] {job : Job K V T VO S L}
    {thisWorker : WorkerId} {current next : Worker K V T VO S L}
    {incoming : Option (WorkerId × NetworkMessage K V T)}
    {received : List (Message K V T)} {operated : Option (Message K V T)}
    {outgoing : List (WorkerId × NetworkMessage K V T)}
    (move : Move job thisWorker current incoming received operated next
      outgoing) : next.taken = current.taken ++ received := by
  cases move <;> simp [Worker.after]

theorem Distributor.quiet_handleEpoch [MaybeTime T]
    (distributor : Distributor K V T) :
    (∀ message ∈ distributor.handleEpoch.output, message.isQuiet = true) ∧
      distributor.handleEpoch.network = [] := by
  simp only [Distributor.handleEpoch]
  split
  next toEmit _ => simp [Message.isQuiet]
  next => simp

namespace System

def incoming (system : System K V T VO S L) :
    Event K V T → Option (WorkerId × NetworkMessage K V T)
  | .receiveRemote worker remote =>
      if (system.workers worker).distributor.canReceive remote then
        (system.links remote worker).head?.map fun message => (remote, message)
      else none
  | _ => none

def received (system : System K V T VO S L) :
    Event K V T → List (Message K V T)
  | .receiveLocal worker message =>
      if (system.workers worker).distributor.localBarrier then [] else [message]
  | _ => []

def operated (system : System K V T VO S L) :
    Event K V T → Option (Message K V T)
  | .operator worker => (system.workers worker).queue.head?
  | _ => none

def arrival (system : System K V T VO S L) (event : Event K V T) :
    Option (Arrival K V T) :=
  arrivalOf event.worker (system.incoming event) (system.received event)

def moved (system : System K V T VO S L) (worker : WorkerId)
    (incoming : Option (WorkerId × NetworkMessage K V T))
    (next : Worker K V T VO S L)
    (outgoing : List (WorkerId × NetworkMessage K V T)) :
    System K V T VO S L :=
  { workers := Function.update system.workers worker next
    links := (incoming.elim system.links fun arrived =>
      system.links.set arrived.1 worker
        (system.links arrived.1 worker).tail).sendAll worker outgoing }

theorem moved_worker (system : System K V T VO S L) (worker : WorkerId)
    (incoming : Option (WorkerId × NetworkMessage K V T))
    (next : Worker K V T VO S L)
    (outgoing : List (WorkerId × NetworkMessage K V T)) (other : WorkerId) :
    (system.moved worker incoming next outgoing).workers other =
      if other = worker then next else system.workers other := by
  simp [moved, Function.update_apply]

/-- A step changes one worker, takes at most one message off a link into it
and adds to the links out of it. -/
theorem moved_links (system : System K V T VO S L) (worker : WorkerId)
    (incoming : Option (WorkerId × NetworkMessage K V T))
    (next : Worker K V T VO S L)
    (outgoing : List (WorkerId × NetworkMessage K V T))
    (source target : WorkerId) :
    (system.moved worker incoming next outgoing).links source target =
      (if incoming.map Prod.fst = some source ∧ target = worker then
        (system.links source target).tail else system.links source target) ++
      if source = worker then Links.addressedTo target outgoing else [] := by
  cases incoming with
  | none =>
      simp only [moved, Option.elim_none, Links.sendAll_apply, Option.map_none,
        reduceCtorEq, false_and, if_false]
      split
      · rfl
      · simp
  | some arrived =>
      simp only [moved, Option.elim_some, Links.sendAll_apply,
        Links.set_apply, Option.map_some, Option.some.injEq]
      by_cases taken : source = arrived.1 ∧ target = worker
      · obtain ⟨rfl, rfl⟩ := taken
        simp only [and_self, if_true]
        split
        · rfl
        · simp
      · have reversed : ¬(arrived.1 = source ∧ target = worker) :=
          fun both => taken ⟨both.1.symm, both.2⟩
        simp only [taken, reversed, if_false]
        split
        · rfl
        · simp

/-- What relates two workers over the link between them survives a step if the
moved worker keeps it as a sender and as a receiver. -/
theorem moved_pairwise {system : System K V T VO S L} {worker : WorkerId}
    {incoming : Option (WorkerId × NetworkMessage K V T)}
    {next : Worker K V T VO S L}
    {outgoing : List (WorkerId × NetworkMessage K V T)}
    (holds : WorkerId → WorkerId → Worker K V T VO S L →
      Worker K V T VO S L → List (NetworkMessage K V T) → Prop)
    (before : ∀ source target, source ≠ target →
      holds source target (system.workers source) (system.workers target)
        (system.links source target))
    (head : ∀ arrived ∈ incoming, arrived.1 ≠ worker ∧
      (system.links arrived.1 worker).head? = some arrived.2)
    (sends : ∀ target, target ≠ worker →
      holds worker target (system.workers worker) (system.workers target)
        (system.links worker target) →
      holds worker target next (system.workers target)
        (system.links worker target ++ Links.addressedTo target outgoing))
    (keeps : ∀ source, source ≠ worker → incoming.map Prod.fst ≠ some source →
      holds source worker (system.workers source) (system.workers worker)
        (system.links source worker) →
      holds source worker (system.workers source) next
        (system.links source worker))
    (takes : ∀ source message rest, source ≠ worker →
      incoming = some (source, message) →
      holds source worker (system.workers source) (system.workers worker)
        (message :: rest) →
      holds source worker (system.workers source) next rest) :
    ∀ source target, source ≠ target →
      holds source target
        ((system.moved worker incoming next outgoing).workers source)
        ((system.moved worker incoming next outgoing).workers target)
        ((system.moved worker incoming next outgoing).links source target) := by
  intro source target different
  rw [moved_worker, moved_worker, moved_links]
  have held := before source target different
  by_cases isSource : source = worker
  · subst isSource
    have notTaken : ¬(incoming.map Prod.fst = some source ∧ target = source) :=
      fun both => different both.2.symm
    simp only [notTaken, if_false, if_true, if_neg (Ne.symm different)]
    exact sends target (Ne.symm different) held
  · by_cases isTarget : target = worker
    · subst isTarget
      simp only [if_neg isSource, if_true, and_true, List.append_nil]
      by_cases taken : incoming.map Prod.fst = some source
      · simp only [taken, if_true]
        obtain ⟨⟨sender, message⟩, incomingEquation, rfl⟩ :=
          Option.map_eq_some_iff.mp taken
        have first := (head _ incomingEquation).2
        cases linkEquation : system.links sender target with
        | nil => simp [linkEquation] at first
        | cons found rest =>
            simp only [linkEquation, List.head?_cons, Option.some.injEq]
              at first
            subst first
            exact takes sender found rest isSource incomingEquation
              (linkEquation ▸ held)
      · simp only [taken, if_false]
        exact keeps source isSource taken held
    · simp only [if_neg isSource, isTarget, and_false, if_false,
        List.append_nil]
      exact held

theorem incoming_receiveRemote {system : System K V T VO S L}
    {worker remote : WorkerId} {message : NetworkMessage K V T}
    {rest : List (NetworkMessage K V T)}
    (ready : (system.workers worker).distributor.canReceive remote = true)
    (head : system.links remote worker = message :: rest) :
    system.incoming (.receiveRemote worker remote) = some (remote, message) := by
  simp [incoming, ready, head]

theorem install_eq_moved {system : System K V T VO S L} {worker : WorkerId}
    {received : List (Message K V T)}
    {result : Distributor K V T × Effects K V T} :
    system.install worker { system.workers worker with
        taken := (system.workers worker).taken ++ received } result =
      system.moved worker none
        ((system.workers worker).after received result.1 result.2)
        result.2.network := rfl

theorem install_eq_moved' {system : System K V T VO S L} {worker : WorkerId}
    {result : Distributor K V T × Effects K V T} :
    system.install worker (system.workers worker) result =
      system.moved worker none
        ((system.workers worker).after [] result.1 result.2)
        result.2.network := by
  simp [install, moved, Worker.after]

variable [DecidableEq K] [MaybeTime T] {job : Job K V T VO S L}

theorem move_of_handleDataMessage {worker : WorkerId}
    {current : Worker K V T VO S L}
    {incoming : Option (WorkerId × NetworkMessage K V T)}
    {received : List (Message K V T)} {arrival : Arrival K V T}
    {result : Distributor K V T × Effects K V T}
    (arrives : arrivalOf worker incoming received = some arrival)
    (handled : current.distributor.handleDataMessage arrival.message
      arrival.version job.partitioner worker arrival.sender = .ok result) :
    Move job worker current incoming received none
      (current.after received result.1 result.2) result.2.network := by
  obtain ⟨target, routed, outcome⟩ := current.distributor.router.routed arrival
    job.partitioner worker current.distributor.remotes
  simp only [Distributor.handleDataMessage, outcome] at handled
  cases target with
  | none =>
      simp only [Option.map_none, Except.ok.injEq] at handled
      subst handled
      exact .buffered arrives routed
  | some target =>
      simp only [Option.map_some, Distributor.sendDataMessage] at handled
      by_cases here : target = worker
      · simp only [here, if_true, Except.ok.injEq] at handled
        subst handled
        exact .kept arrives (here ▸ routed)
      · simp only [here, if_false] at handled
        cases client : current.distributor.remotes.get? target with
        | none => simp [client] at handled
        | some state =>
            simp only [client, Except.ok.injEq] at handled
            subst handled
            exact .forwarded arrives routed here
              (IndexMap.mem_of_get?_eq_some client)

theorem move_of_receiveRemote {worker remote : WorkerId}
    {current : Worker K V T VO S L} {message : NetworkMessage K V T}
    {result : Distributor K V T × Effects K V T}
    (handled : current.distributor.receiveRemote remote message
      job.partitioner worker = .ok result) :
    Move job worker current (some (remote, message)) [] none
      (current.after [] result.1 result.2) result.2.network := by
  cases message with
  | data dataMessage => exact move_of_handleDataMessage rfl handled
  | epoch epoch =>
      simp only [Distributor.receiveRemote, Except.ok.injEq] at handled
      subst handled
      have quiet := Distributor.quiet_handleEpoch { current.distributor with
        remotes := current.distributor.remotes.modify remote fun state =>
          { state with frontier := some epoch } }
      refine .quiet rfl ?_ quiet.1 (by simp [quiet.2])
        (by simp [NetworkMessage.isQuiet]) (by simp)
      dsimp only
      apply Remotes.agree_modify
      · exact fun _ => rfl
      · exact fun _ => rfl
  | barrierMarker =>
      simp only [Distributor.receiveRemote, Except.ok.injEq] at handled
      subst handled
      refine .quiet rfl ?_ (by simp) (by simp)
        (by simp [NetworkMessage.isQuiet]) (by simp)
      dsimp only
      apply Remotes.agree_modify
      · exact fun _ => rfl
      · exact fun _ => rfl
  | suspendMarker =>
      simp only [Distributor.receiveRemote, Except.ok.injEq] at handled
      subst handled
      refine .quiet rfl ?_ (by simp) (by simp)
        (by simp [NetworkMessage.isQuiet]) (by simp)
      dsimp only
      apply Remotes.agree_modify
      · exact fun _ => rfl
      · exact fun _ => rfl
  | acquire acquire =>
      simp only [Distributor.receiveRemote, Except.ok.injEq] at handled
      subst handled
      exact .acquire
  | upgrade version =>
      simp only [Distributor.receiveRemote, Except.ok.injEq] at handled
      subst handled
      exact .upgrade
  | ackUpgrade version =>
      simp only [Distributor.receiveRemote, Except.ok.injEq] at handled
      subst handled
      exact .ackUpgrade

theorem move_of_receiveLocal {worker : WorkerId}
    {current : Worker K V T VO S L} {message : Message K V T}
    {result : Distributor K V T × Effects K V T}
    (handled : current.distributor.receiveLocal message job.partitioner worker =
      .ok result) :
    Move job worker current none [message] none
      (current.after [message] result.1 result.2) result.2.network := by
  cases message with
  | data dataMessage => exact move_of_handleDataMessage rfl handled
  | epoch epoch =>
      simp only [Distributor.receiveLocal, Except.ok.injEq] at handled
      subst handled
      have quiet := Distributor.quiet_handleEpoch
        { current.distributor with localFrontier := some epoch }
      refine .quiet rfl (Remotes.Agree.refl _) ?_ ?_ (by simp)
        (by simp [Message.data?, Message.rescale?])
      · simpa [Effects.append] using quiet.1
      · simp [Effects.append, quiet.2, broadcast, NetworkMessage.isQuiet]
  | absBarrier =>
      simp only [Distributor.receiveLocal, Except.ok.injEq] at handled
      subst handled
      exact .quiet rfl (Remotes.Agree.refl _)
        (by simp [Distributor.handleLocalBarrier])
        (by simp [Distributor.handleLocalBarrier, broadcast,
          NetworkMessage.isQuiet])
        (by simp) (by simp [Message.data?, Message.rescale?])
  | rescale trigger =>
      simp only [Distributor.receiveLocal, Except.ok.injEq] at handled
      subst handled
      cases routerEquation : current.distributor.router with
      | normal normal =>
          simp only [Distributor.handleRescaleMessage,
            MessageRouter.handleRescale, routerEquation]
          exact .rescale routerEquation
      | interrogate router =>
          have copy : Move job worker current none [.rescale trigger] none _ _ :=
            .rescaleCopy (by simp [routerEquation])
          simpa only [Distributor.handleRescaleMessage,
            MessageRouter.handleRescale, routerEquation] using copy
      | collect router =>
          have copy : Move job worker current none [.rescale trigger] none _ _ :=
            .rescaleCopy (by simp [routerEquation])
          simpa only [Distributor.handleRescaleMessage,
            MessageRouter.handleRescale, routerEquation] using copy
      | finished router =>
          have copy : Move job worker current none [.rescale trigger] none _ _ :=
            .rescaleCopy (by simp [routerEquation])
          simpa only [Distributor.handleRescaleMessage,
            MessageRouter.handleRescale, routerEquation] using copy
  | suspendMarker =>
      simp only [Distributor.receiveLocal, Except.ok.injEq] at handled
      subst handled
      exact .quiet rfl (Remotes.Agree.refl _) (by simp)
        (by simp [broadcast, NetworkMessage.isQuiet])
        (by simp) (by simp [Message.data?, Message.rescale?])
  | interrogate =>
      simp only [Distributor.receiveLocal, Except.ok.injEq] at handled
      subst handled
      exact .quiet rfl (Remotes.Agree.refl _) (by simp) (by simp) (by simp)
        (by simp [Message.data?, Message.rescale?])
  | collect key =>
      simp only [Distributor.receiveLocal, Except.ok.injEq] at handled
      subst handled
      exact .quiet rfl (Remotes.Agree.refl _) (by simp) (by simp) (by simp)
        (by simp [Message.data?, Message.rescale?])
  | acquire acquire =>
      simp only [Distributor.receiveLocal, Except.ok.injEq] at handled
      subst handled
      exact .quiet rfl (Remotes.Agree.refl _) (by simp) (by simp) (by simp)
        (by simp [Message.data?, Message.rescale?])

theorem move_of_tryEmitBarrier (worker : WorkerId)
    (current : Worker K V T VO S L) :
    Move job worker current none [] none
      (current.after [] current.distributor.tryEmitBarrier.1
        current.distributor.tryEmitBarrier.2)
      current.distributor.tryEmitBarrier.2.network := by
  unfold Distributor.tryEmitBarrier
  split
  · refine .quiet rfl ?_ (by simp [Message.isQuiet]) (by simp) (by simp)
      (by simp)
    dsimp only
    apply Remotes.agree_mapValues
    · exact fun _ => rfl
    · exact fun _ => rfl
  · exact .quiet rfl (Remotes.Agree.refl _) (by simp) (by simp) (by simp)
      (by simp)

theorem move_of_tryEmitShutdown (worker : WorkerId)
    (current : Worker K V T VO S L) :
    Move job worker current none [] none
      (current.after [] current.distributor.tryEmitShutdown.1
        current.distributor.tryEmitShutdown.2)
      current.distributor.tryEmitShutdown.2.network := by
  unfold Distributor.tryEmitShutdown
  split
  · exact .quiet rfl (Remotes.Agree.refl _) (by simp [Message.isQuiet])
      (by simp) (by simp) (by simp)
  · exact .quiet rfl (Remotes.Agree.refl _) (by simp) (by simp) (by simp)
      (by simp)

/-- Once a collecting router has sent what it releases it collects the next
key, or is finished where none is left. -/
theorem move_of_conclude {worker : WorkerId} {current : Worker K V T VO S L}
    {router released : CollectRouter K V T}
    {network : List (WorkerId × NetworkMessage K V T)}
    (collecting : current.distributor.router = .collect router)
    (release : Released job.partitioner current.distributor.remotes
      current.clones router released network)
    (idle : released.currentCollect = none)
    (same : released.version = router.version ∧
      released.oldWorkerSet = router.oldWorkerSet ∧
      released.newWorkerSet = router.newWorkerSet ∧
      released.trigger = router.trigger) :
    Move job worker current none [] none
      (current.after []
        { current.distributor with
          router := (released.setAndEmitCollect.1.conclude
            current.distributor.remotes
            { output := released.setAndEmitCollect.2
              network := network }).1 }
        (released.setAndEmitCollect.1.conclude current.distributor.remotes
          { output := released.setAndEmitCollect.2, network := network }).2)
      (released.setAndEmitCollect.1.conclude current.distributor.remotes
        { output := released.setAndEmitCollect.2
          network := network }).2.network := by
  cases popped : released.whitelist.pop with
  | none =>
      have empty := IndexSet.pop_eq_none popped
      have isEmpty := (IndexSet.isEmpty_iff released.whitelist).mpr empty
      have move : Move job worker current none [] none _ _ :=
        .concluded collecting release empty
      simpa [CollectRouter.setAndEmitCollect, idle, popped,
        CollectRouter.conclude, isEmpty, Effects.append, same] using move
  | some popResult =>
      obtain ⟨key, rest⟩ := popResult
      have move : Move job worker current none [] none _ _ :=
        .collectNext collecting release popped
      simpa [CollectRouter.setAndEmitCollect, idle, popped,
        CollectRouter.conclude] using move

theorem move_of_lifecycle {worker : WorkerId} {current : Worker K V T VO S L}
    {result : Distributor K V T × Effects K V T}
    (handled : current.distributor.lifecycle job.partitioner current.clones =
      .ok result) :
    Move job worker current none [] none (current.after [] result.1 result.2)
      result.2.network := by
  have idleMove (distributor : Distributor K V T)
      (same : distributor = current.distributor) :
      Move job worker current none [] none (current.after [] distributor {}) [] := by
    subst same
    exact .quiet rfl (Remotes.Agree.refl _) (by simp) (by simp) (by simp)
      (by simp)
  cases routerEquation : current.distributor.router with
  | normal normal =>
      simp only [Distributor.lifecycle, MessageRouter.lifecycle,
        routerEquation, Except.ok.injEq] at handled
      subst handled
      exact idleMove _ (by rw [← routerEquation])
  | interrogate router =>
      simp only [Distributor.lifecycle, MessageRouter.lifecycle,
        routerEquation, Except.ok.injEq] at handled
      subst handled
      by_cases unwrapped : current.clones = 0
      · simp only [InterrogateRouter.lifecycle, Interrogate.tryUnwrap,
          unwrapped, if_true]
        exact .interrogated routerEquation unwrapped
      · simp only [InterrogateRouter.lifecycle, Interrogate.tryUnwrap,
          unwrapped, if_false]
        exact idleMove _ (by rw [← routerEquation])
  | collect router =>
      simp only [Distributor.lifecycle, MessageRouter.lifecycle,
        routerEquation, CollectRouter.lifecycle] at handled
      cases currentEquation : router.currentCollect with
      | none =>
          simp only [currentEquation, Except.ok.injEq] at handled
          subst handled
          exact move_of_conclude routerEquation (.idle currentEquation)
            currentEquation ⟨rfl, rfl, rfl, rfl⟩
      | some collect =>
          by_cases unwrapped : current.clones = 0
          · simp only [currentEquation, Collect.tryIntoAcquire, unwrapped,
              if_true] at handled
            cases client : current.distributor.remotes.get?
                (job.partitioner collect.key router.newWorkerSet) with
            | none => simp [client] at handled
            | some state =>
                simp only [client, Except.ok.injEq] at handled
                subst handled
                exact move_of_conclude routerEquation
                  (.released unwrapped currentEquation
                    (IndexMap.mem_of_get?_eq_some client))
                  rfl ⟨rfl, rfl, rfl, rfl⟩
          · simp only [currentEquation, Collect.tryIntoAcquire, unwrapped,
              if_false, CollectRouter.conclude, Option.isNone_some,
              Bool.false_and, Bool.false_eq_true, Except.ok.injEq] at handled
            subst handled
            exact idleMove _ (by rw [← currentEquation, ← routerEquation])
  | finished router =>
      simp only [Distributor.lifecycle, MessageRouter.lifecycle,
        routerEquation, Except.ok.injEq] at handled
      subst handled
      by_cases upgraded :
          router.allUpgraded current.distributor.remotes = true
      · simp only [FinishedRouter.lifecycle, upgraded, if_true]
        exact .finished routerEquation upgraded
      · simp only [FinishedRouter.lifecycle, upgraded, Bool.false_eq_true,
          if_false]
        exact idleMove _ (by rw [← routerEquation])

theorem move_of_scheduleOperator (job : Job K V T VO S L)
    (system : System K V T VO S L) (worker : WorkerId) :
    ∃ next, Move job worker (system.workers worker) none []
        (system.workers worker).queue.head? next [] ∧
      system.scheduleOperator job worker = system.moved worker none next [] := by
  cases queueEquation : (system.workers worker).queue with
  | nil =>
      refine ⟨_, .scheduled queueEquation, ?_⟩
      simp only [scheduleOperator, queueEquation]
      rfl
  | cons message rest =>
      refine ⟨_, .received queueEquation rfl rfl, ?_⟩
      simp only [scheduleOperator, queueEquation]
      rfl

theorem receiveRemote_cases {system next : System K V T VO S L}
    {worker remote : WorkerId}
    (stepped : system.step job (.receiveRemote worker remote) = .ok next) :
    next = system ∨ ∃ message result,
      (system.workers worker).distributor.canReceive remote = true ∧
      (system.links remote worker).head? = some message ∧
      system.incoming (.receiveRemote worker remote) = some (remote, message) ∧
      (system.workers worker).distributor.receiveRemote remote message
        job.partitioner worker = .ok result ∧
      next = system.moved worker (some (remote, message))
        ((system.workers worker).after [] result.1 result.2)
        result.2.network := by
  simp only [step, receiveRemote] at stepped
  by_cases ready : (system.workers worker).distributor.canReceive remote = true
  · simp only [ready, if_true] at stepped
    cases head : system.links remote worker with
    | nil =>
        simp only [head, Except.ok.injEq] at stepped
        exact .inl stepped.symm
    | cons message rest =>
        simp only [head] at stepped
        cases handled : (system.workers worker).distributor.receiveRemote
            remote message job.partitioner worker with
        | error panic => simp [handled] at stepped
        | ok result =>
            simp only [handled, Except.ok.injEq] at stepped
            subst stepped
            refine .inr ⟨message, result, ready, rfl,
              incoming_receiveRemote ready head, handled, ?_⟩
            simp [install, moved, Worker.after, head]
  · simp only [ready, Bool.false_eq_true, if_false, Except.ok.injEq] at stepped
    exact .inl stepped.symm

theorem receiveLocal_cases {system next : System K V T VO S L}
    {worker : WorkerId} {message : Message K V T}
    (stepped : system.step job (.receiveLocal worker message) = .ok next) :
    next = system ∨ ∃ result,
      (system.workers worker).distributor.localBarrier = false ∧
      system.received (.receiveLocal worker message) = [message] ∧
      (system.workers worker).distributor.receiveLocal message
        job.partitioner worker = .ok result ∧
      next = system.moved worker none
        ((system.workers worker).after [message] result.1 result.2)
        result.2.network := by
  simp only [step, receiveLocal] at stepped
  cases free : (system.workers worker).distributor.localBarrier with
  | true =>
      simp only [free, if_true, Except.ok.injEq] at stepped
      exact .inl stepped.symm
  | false =>
      simp only [free, Bool.false_eq_true, if_false] at stepped
      cases handled : (system.workers worker).distributor.receiveLocal message
          job.partitioner worker with
      | error panic => simp [handled] at stepped
      | ok result =>
          simp only [handled, Except.ok.injEq] at stepped
          subst stepped
          exact .inr ⟨result, rfl, by simp [received, free], rfl,
            install_eq_moved⟩

omit [DecidableEq K] [MaybeTime T] in
theorem canReceive_client {distributor : Distributor K V T} {remote : WorkerId}
    (ready : distributor.canReceive remote = true) :
    remote ∈ distributor.remotes := by
  rw [← IndexMap.get?_isSome]
  unfold Distributor.canReceive at ready
  split at ready
  next found => simp [found]
  next => contradiction

omit [DecidableEq K] [MaybeTime T] in
theorem incoming_head {system : System K V T VO S L} {event : Event K V T}
    {arrived : WorkerId × NetworkMessage K V T}
    (found : system.incoming event = some arrived) :
    arrived.1 ∈ (system.workers event.worker).distributor.remotes ∧
      (system.links arrived.1 event.worker).head? = some arrived.2 := by
  cases event with
  | receiveRemote worker remote =>
      simp only [incoming] at found
      split at found
      next ready =>
        obtain ⟨message, head, rfl⟩ := Option.map_eq_some_iff.mp found
        exact ⟨canReceive_client ready, head⟩
      next => simp at found
  | _ => simp [incoming] at found

theorem step_cases {system next : System K V T VO S L} {event : Event K V T}
    (stepped : system.step job event = .ok next) :
    next = system ∨ ∃ worker outgoing,
      Move job event.worker (system.workers event.worker)
        (system.incoming event) (system.received event) (system.operated event)
        worker outgoing ∧
      next = system.moved event.worker (system.incoming event) worker
        outgoing := by
  cases event with
  | receiveRemote worker remote =>
      rcases receiveRemote_cases stepped with same |
        ⟨message, result, _, _, incomingEquation, handled, equation⟩
      · exact .inl same
      · right
        refine ⟨_, _, ?_, incomingEquation ▸ equation⟩
        rw [incomingEquation]
        exact move_of_receiveRemote handled
  | receiveLocal worker message =>
      rcases receiveLocal_cases stepped with same |
        ⟨result, _, receivedEquation, handled, equation⟩
      · exact .inl same
      · right
        refine ⟨_, _, ?_, equation⟩
        rw [receivedEquation]
        exact move_of_receiveLocal handled
  | tryEmitBarrier worker =>
      simp only [step, Except.ok.injEq] at stepped
      subst stepped
      exact .inr ⟨_, _, move_of_tryEmitBarrier worker _,
        install_eq_moved'⟩
  | tryEmitShutdown worker =>
      simp only [step, Except.ok.injEq] at stepped
      subst stepped
      exact .inr ⟨_, _, move_of_tryEmitShutdown worker _,
        install_eq_moved'⟩
  | lifecycle worker =>
      simp only [step] at stepped
      cases handled : (system.workers worker).distributor.lifecycle
          job.partitioner (system.workers worker).clones with
      | error panic => simp [handled] at stepped
      | ok result =>
          simp only [handled, Except.ok.injEq] at stepped
          subst stepped
          exact .inr ⟨_, _, move_of_lifecycle handled,
            install_eq_moved'⟩
  | operator worker =>
      simp only [step, Except.ok.injEq] at stepped
      obtain ⟨next', move, movedEquation⟩ := move_of_scheduleOperator job system
        worker
      subst stepped
      exact .inr ⟨next', [], move, movedEquation⟩
  | sink worker =>
      simp only [step, Except.ok.injEq] at stepped
      subst stepped
      exact .inr ⟨_, [], .sink, rfl⟩

end System

end Malstrom.Keyed
