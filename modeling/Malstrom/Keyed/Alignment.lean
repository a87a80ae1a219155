import Malstrom.Keyed.Move

namespace Malstrom

namespace Message

variable {K V T : Type}

/-- Neither a record nor a barrier nor a `SuspendMarker`. -/
def isSilent : Message K V T → Bool
  | .data _ | .absBarrier | .suspendMarker => false
  | .epoch _ | .rescale _ | .interrogate | .collect _ | .acquire _ => true

end Message

namespace Keyed

open Data Operators

variable {K V T VO S L : Type}

namespace NetworkMessage

def isBarrier : NetworkMessage K V T → Bool
  | .barrierMarker => true
  | _ => false

def isSuspend : NetworkMessage K V T → Bool
  | .suspendMarker => true
  | _ => false

def isSilent : NetworkMessage K V T → Bool
  | .data _ | .barrierMarker | .suspendMarker => false
  | .epoch _ | .acquire _ | .upgrade _ | .ackUpgrade _ => true

def record? (message : NetworkMessage K V T) : Option (DataMessage K V T) :=
  message.data?.map NetworkDataMessage.content

end NetworkMessage

/-! What one step does to the alignment of barriers while no rescale is under
way. -/

/-- The part of a distributor which decides about barriers. -/
structure Flags where
  localBarrier : Bool
  isBarred : WorkerId → Bool
  sentSuspend : WorkerId → Bool

def Distributor.flags (distributor : Distributor K V T) : Flags :=
  { localBarrier := distributor.localBarrier
    isBarred := fun remote =>
      (distributor.remotes.get? remote).any RemoteState.isBarred
    sentSuspend := fun remote =>
      (distributor.remotes.get? remote).any RemoteState.sentSuspend }

/-- What a worker takes, hands downstream and sends in one step, and its flags
before and after. -/
inductive Turn (owner : K → WorkerId) (thisWorker : WorkerId)
    (clients : WorkerId → Prop) (flags : Flags) :
    Option (WorkerId × NetworkMessage K V T) → List (Message K V T) →
      List (Message K V T) → List (WorkerId × NetworkMessage K V T) → Flags →
      Prop
  | silent {incoming : Option (WorkerId × NetworkMessage K V T)}
      {received output : List (Message K V T)}
      {outgoing : List (WorkerId × NetworkMessage K V T)}
      (silentIncoming : ∀ arrived ∈ incoming, arrived.2.isSilent = true)
      (silentReceived : ∀ message ∈ received, message.isSilent = true)
      (silentOutput : ∀ message ∈ output, message.isSilent = true)
      (silentOutgoing : ∀ addressed ∈ outgoing, addressed.2.isSilent = true) :
      Turn owner thisWorker clients flags incoming received output outgoing flags
  | kept {message : DataMessage K V T} (free : flags.localBarrier = false)
      (here : owner message.key = thisWorker) :
      Turn owner thisWorker clients flags none [.data message]
        [.data message] [] flags
  | forwarded {message : DataMessage K V T} {version : Version}
      (free : flags.localBarrier = false)
      (away : owner message.key ≠ thisWorker)
      (client : clients (owner message.key)) :
      Turn owner thisWorker clients flags none [.data message] []
        [(owner message.key, .data ⟨message, version⟩)] flags
  | arrived {remote : WorkerId} {message : NetworkDataMessage K V T} :
      Turn owner thisWorker clients flags (some (remote, .data message)) []
        [.data message.content] [] flags
  | localBarrier {outgoing : List (WorkerId × NetworkMessage K V T)}
      (free : flags.localBarrier = false)
      (broadcast : ∀ target, Links.addressedTo target outgoing = [] ∨
        Links.addressedTo target outgoing = [.barrierMarker])
      (all : ∀ target, clients target →
        Links.addressedTo target outgoing = [.barrierMarker]) :
      Turn owner thisWorker clients flags none [.absBarrier] [] outgoing
        { flags with localBarrier := true }
  | localSuspend {outgoing : List (WorkerId × NetworkMessage K V T)}
      (broadcast : ∀ target, Links.addressedTo target outgoing = [] ∨
        Links.addressedTo target outgoing = [.suspendMarker]) :
      Turn owner thisWorker clients flags none [.suspendMarker] [] outgoing flags
  | barred {remote : WorkerId} :
      Turn owner thisWorker clients flags (some (remote, .barrierMarker)) [] []
        [] { flags with isBarred := Function.update flags.isBarred remote true }
  | suspended {remote : WorkerId} :
      Turn owner thisWorker clients flags (some (remote, .suspendMarker)) [] []
        [] { flags with
          sentSuspend := Function.update flags.sentSuspend remote true }
  | barrier (pending : flags.localBarrier = true)
      (aligned : ∀ remote, clients remote →
        flags.isBarred remote = true ∨ flags.sentSuspend remote = true) :
      Turn owner thisWorker clients flags none [] [.absBarrier] []
        { flags with localBarrier := false, isBarred := fun _ => false }
  | shutdown (aligned : ∀ remote, clients remote →
        flags.sentSuspend remote = true) :
      Turn owner thisWorker clients flags none [] [.suspendMarker] [] flags

/-- A step of one worker in front of which no rescale is under way. -/
structure Turned (partitioner : WorkerPartitioner K)
    (workers : IndexSet WorkerId) (system : System K V T VO S L)
    (event : Event K V T) (worker : Worker K V T VO S L)
    (output : List (Message K V T))
    (outgoing : List (WorkerId × NetworkMessage K V T)) : Prop where
  turn : Turn (fun key => partitioner key workers) event.worker
    (fun remote =>
      remote ∈ (system.workers event.worker).distributor.remotes)
    (system.workers event.worker).distributor.flags (system.incoming event)
    (system.received event) output outgoing worker.distributor.flags
  isOpen : ∀ arrived ∈ system.incoming event,
    (system.workers event.worker).distributor.flags.isBarred arrived.1 = false ∧
    (system.workers event.worker).distributor.flags.sentSuspend arrived.1 =
      false
  taken : worker.taken =
    (system.workers event.worker).taken ++ system.received event
  handed : worker.handed = (system.workers event.worker).handed ++ output
  router : worker.distributor.router =
    (system.workers event.worker).distributor.router
  clients : ∀ remote, remote ∈ worker.distributor.remotes ↔
    remote ∈ (system.workers event.worker).distributor.remotes

/-! ### The turns of a step -/

theorem flags_modify (distributor : Distributor K V T) (remote : WorkerId)
    (change : RemoteState T → RemoteState T)
    (barred : ∀ state, (change state).isBarred = state.isBarred)
    (suspend : ∀ state, (change state).sentSuspend = state.sentSuspend) :
    { distributor with
      remotes := distributor.remotes.modify remote change }.flags =
        distributor.flags := by
  simp only [Distributor.flags, Flags.mk.injEq, true_and]
  constructor
  · funext other
    rw [IndexMap.get?_modify]
    split
    · cases distributor.remotes.get? other with
      | none => rfl
      | some state => exact barred state
    · rfl
  · funext other
    rw [IndexMap.get?_modify]
    split
    · cases distributor.remotes.get? other with
      | none => rfl
      | some state => exact suspend state
    · rfl

theorem flags_barred (distributor : Distributor K V T) {remote : WorkerId}
    (client : remote ∈ distributor.remotes) :
    { distributor with
      remotes := distributor.remotes.modify remote fun state =>
        { state with isBarred := true } }.flags =
      { distributor.flags with
        isBarred := Function.update distributor.flags.isBarred remote true } := by
  obtain ⟨state, found⟩ := IndexMap.exists_get?_of_mem client
  simp only [Distributor.flags, Flags.mk.injEq, true_and]
  constructor
  · funext other
    rw [IndexMap.get?_modify, Function.update_apply]
    split
    next same => simp [same, found]
    next => rfl
  · funext other
    rw [IndexMap.get?_modify]
    split
    · cases distributor.remotes.get? other <;> rfl
    · rfl

theorem flags_suspended (distributor : Distributor K V T) {remote : WorkerId}
    (client : remote ∈ distributor.remotes) :
    { distributor with
      remotes := distributor.remotes.modify remote fun state =>
        { state with sentSuspend := true } }.flags =
      { distributor.flags with
        sentSuspend :=
          Function.update distributor.flags.sentSuspend remote true } := by
  obtain ⟨state, found⟩ := IndexMap.exists_get?_of_mem client
  simp only [Distributor.flags, Flags.mk.injEq, true_and]
  constructor
  · funext other
    rw [IndexMap.get?_modify]
    split
    · cases distributor.remotes.get? other <;> rfl
    · rfl
  · funext other
    rw [IndexMap.get?_modify, Function.update_apply]
    split
    next same => simp [same, found]
    next => rfl

theorem canReceive_flags {distributor : Distributor K V T} {remote : WorkerId}
    (ready : distributor.canReceive remote = true) :
    remote ∈ distributor.remotes ∧
      distributor.flags.isBarred remote = false ∧
      distributor.flags.sentSuspend remote = false := by
  unfold Distributor.canReceive at ready
  cases found : distributor.remotes.get? remote with
  | none => simp [found] at ready
  | some state =>
      simp only [found, Bool.and_eq_true, Bool.not_eq_true'] at ready
      exact ⟨IndexMap.mem_of_get?_eq_some found, by
        simp [Distributor.flags, found, ready]⟩

theorem flags_all {distributor : Distributor K V T}
    {good : RemoteState T → Bool}
    (all : distributor.remotes.values.all good = true) {remote : WorkerId}
    (client : remote ∈ distributor.remotes) :
    ∃ state, distributor.remotes.get? remote = some state ∧
      good state = true := by
  obtain ⟨state, found⟩ := IndexMap.exists_get?_of_mem client
  have member : state ∈ distributor.remotes.values :=
    List.mem_map_of_mem (IndexMap.get?_eq_some.mp found)
  exact ⟨state, found, List.all_eq_true.mp all state member⟩

theorem addressedTo_broadcast_cases (remotes : Remotes T)
    (message : NetworkMessage K V T) (target : WorkerId) :
    Links.addressedTo target (broadcast remotes message) = [] ∨
      Links.addressedTo target (broadcast remotes message) = [message] := by
  rw [addressedTo_broadcast]
  split
  · exact .inr rfl
  · exact .inl rfl

section

variable [DecidableEq K] [MaybeTime T] {job : Job K V T VO S L}
  {workers : IndexSet WorkerId} {version : Version}
  {system next : System K V T VO S L} {event : Event K V T}

omit [MaybeTime T] in
/-- A running distributor keeps its own records and forwards all others. -/
theorem handleDataMessage_running {partitioner : WorkerPartitioner K}
    {distributor : Distributor K V T}
    {thisWorker sender : WorkerId} {message : DataMessage K V T}
    {messageVersion : Option Version}
    {result : Distributor K V T × Effects K V T}
    (running : distributor.router = .normal ⟨workers, version⟩)
    (handled : distributor.handleDataMessage message messageVersion
      partitioner thisWorker sender = .ok result) :
    result.1 = distributor ∧
      (result.2 = { output := [.data message] } ∧
          (messageVersion = none →
            partitioner message.key workers = thisWorker) ∨
        result.2 = { network := [(partitioner message.key workers,
            .data ⟨message, version⟩)] } ∧
          partitioner message.key workers ≠ thisWorker ∧
          partitioner message.key workers ∈ distributor.remotes) := by
  have routed : (distributor.router.routeMessage message messageVersion
      partitioner thisWorker sender distributor.remotes) =
        (distributor.router, some (message, thisWorker)) ∧
          messageVersion ≠ none ∨
      (distributor.router.routeMessage message messageVersion partitioner
        thisWorker sender distributor.remotes) =
        (distributor.router,
          some (message, partitioner message.key workers)) := by
    unfold MessageRouter.routeMessage
    split
    next newer =>
      refine .inl ⟨rfl, ?_⟩
      rintro rfl
      simp at newer
    next => exact .inr (by simp [running, NormalRouter.routeMessage])
  unfold Distributor.handleDataMessage at handled
  rcases routed with ⟨route, versioned⟩ | route
  · simp only [route, Distributor.sendDataMessage, if_true, Except.ok.injEq]
      at handled
    subst handled
    exact ⟨rfl, .inl ⟨rfl, fun absent => absurd absent versioned⟩⟩
  · simp only [route, Distributor.sendDataMessage] at handled
    by_cases here : partitioner message.key workers = thisWorker
    · simp only [here, if_true, Except.ok.injEq] at handled
      subst handled
      exact ⟨rfl, .inl ⟨rfl, fun _ => here⟩⟩
    · cases client : distributor.remotes.get?
          (partitioner message.key workers) with
      | none => simp [here, client] at handled
      | some state =>
          simp only [here, if_false, client, Except.ok.injEq] at handled
          subst handled
          exact ⟨rfl, .inr ⟨by rw [running]; rfl, here,
            IndexMap.mem_of_get?_eq_some client⟩⟩

theorem turned_of_receiveRemote {worker remote : WorkerId}
    {message : NetworkMessage K V T} {result : Distributor K V T × Effects K V T}
    (running : (system.workers worker).distributor.router =
      .normal ⟨workers, version⟩)
    (owned : ∀ record, message = .data record →
      job.partitioner record.content.key workers = worker)
    (ready : (system.workers worker).distributor.canReceive remote = true)
    (incoming : system.incoming (.receiveRemote worker remote) =
      some (remote, message))
    (handled : (system.workers worker).distributor.receiveRemote remote message
      job.partitioner worker = .ok result) :
    Turned job.partitioner workers system (.receiveRemote worker remote)
      ((system.workers worker).after [] result.1 result.2) result.2.output
      result.2.network := by
  obtain ⟨client, flags⟩ := canReceive_flags ready
  have isOpen : ∀ arrived ∈ system.incoming (.receiveRemote worker remote),
      (system.workers worker).distributor.flags.isBarred arrived.1 = false ∧
      (system.workers worker).distributor.flags.sentSuspend arrived.1 =
        false := by
    simpa [incoming] using flags
  have silent (change : RemoteState T → RemoteState T)
      (barred : ∀ state, (change state).isBarred = state.isBarred)
      (suspend : ∀ state, (change state).sentSuspend = state.sentSuspend)
      (effects : Effects K V T) (isSilent : message.isSilent = true)
      (output : ∀ handed ∈ effects.output, handed.isSilent = true)
      (network : ∀ addressed ∈ effects.network,
        addressed.2.isSilent = true) :
      Turned job.partitioner workers system (.receiveRemote worker remote)
        ((system.workers worker).after []
          { (system.workers worker).distributor with
            remotes := (system.workers worker).distributor.remotes.modify
              remote change } effects) effects.output effects.network := by
    refine ⟨?_, isOpen, rfl, rfl, rfl, fun _ => IndexMap.mem_modify⟩
    simp only [Worker.after, flags_modify _ remote change barred suspend,
      incoming]
    exact .silent (by simpa using isSilent) (by simp [System.received]) output
      network
  cases message with
  | data record =>
      obtain ⟨same, ⟨effects, _⟩ | ⟨_, away, _⟩⟩ :=
        handleDataMessage_running running handled
      · rw [same, effects]
        refine ⟨?_, isOpen, rfl, rfl, rfl, fun _ => Iff.rfl⟩
        rw [incoming]
        exact .arrived
      · exact absurd (owned record rfl) away
  | epoch epoch =>
      simp only [Distributor.receiveRemote, Except.ok.injEq] at handled
      subst handled
      refine silent (fun state => { state with frontier := some epoch })
        (fun _ => rfl) (fun _ => rfl) _ rfl ?_ ?_
      · simp only [Distributor.handleEpoch]
        split
        · simp [Message.isSilent]
        · simp
      · simp only [Distributor.handleEpoch]
        split <;> simp
  | barrierMarker =>
      simp only [Distributor.receiveRemote, Except.ok.injEq] at handled
      subst handled
      refine ⟨?_, isOpen, rfl, rfl, rfl, fun _ => IndexMap.mem_modify⟩
      simp only [Worker.after, flags_barred _ client, incoming]
      exact .barred
  | suspendMarker =>
      simp only [Distributor.receiveRemote, Except.ok.injEq] at handled
      subst handled
      refine ⟨?_, isOpen, rfl, rfl, rfl, fun _ => IndexMap.mem_modify⟩
      simp only [Worker.after, flags_suspended _ client, incoming]
      exact .suspended
  | acquire acquire =>
      simp only [Distributor.receiveRemote, Except.ok.injEq] at handled
      subst handled
      refine ⟨?_, isOpen, rfl, rfl, rfl, fun _ => Iff.rfl⟩
      rw [incoming]
      exact .silent (by simp [NetworkMessage.isSilent])
        (by simp [System.received]) (by simp [Message.isSilent]) (by simp)
  | upgrade version =>
      simp only [Distributor.receiveRemote, Except.ok.injEq] at handled
      subst handled
      exact silent (fun state => { state with lastVersion := some version })
        (fun _ => rfl) (fun _ => rfl)
        { network := [(remote, .ackUpgrade version)] } rfl (by simp)
        (by simp [NetworkMessage.isSilent])
  | ackUpgrade version =>
      simp only [Distributor.receiveRemote, Except.ok.injEq] at handled
      subst handled
      exact silent (fun state => { state with lastAckVersion := some version })
        (fun _ => rfl) (fun _ => rfl) {} rfl (by simp) (by simp)

theorem turned_of_receiveLocal {worker : WorkerId} {message : Message K V T}
    {result : Distributor K V T × Effects K V T}
    (running : (system.workers worker).distributor.router =
      .normal ⟨workers, version⟩)
    (noRescale : message.rescale? = none)
    (free : (system.workers worker).distributor.localBarrier = false)
    (received : system.received (.receiveLocal worker message) = [message])
    (handled : (system.workers worker).distributor.receiveLocal message
      job.partitioner worker = .ok result) :
    Turned job.partitioner workers system (.receiveLocal worker message)
      ((system.workers worker).after [message] result.1 result.2)
      result.2.output result.2.network := by
  have silent (distributor : Distributor K V T) (effects : Effects K V T)
      (flags : distributor.flags = (system.workers worker).distributor.flags)
      (router : distributor.router =
        (system.workers worker).distributor.router)
      (remotes : distributor.remotes =
        (system.workers worker).distributor.remotes)
      (isSilent : message.isSilent = true)
      (output : ∀ handed ∈ effects.output, handed.isSilent = true)
      (network : ∀ addressed ∈ effects.network,
        addressed.2.isSilent = true) :
      Turned job.partitioner workers system (.receiveLocal worker message)
        ((system.workers worker).after [message] distributor effects)
        effects.output effects.network := by
    refine ⟨?_, by simp [System.incoming], by rw [received]; rfl, rfl, router, fun remote => ?_⟩
    rotate_left
    · change remote ∈ distributor.remotes ↔ _
      rw [remotes]
      rfl
    simp only [Worker.after, flags, received]
    exact .silent (by simp [System.incoming]) (by simpa using isSilent) output
      network
  cases message with
  | data record =>
      obtain ⟨same, ⟨effects, here⟩ | ⟨effects, away, client⟩⟩ :=
        handleDataMessage_running running handled
      · rw [same, effects]
        refine ⟨?_, by simp [System.incoming], by rw [received]; rfl, rfl, rfl, fun _ => Iff.rfl⟩
        rw [received]
        exact .kept free (here rfl)
      · rw [same, effects]
        refine ⟨?_, by simp [System.incoming], by rw [received]; rfl, rfl, rfl, fun _ => Iff.rfl⟩
        rw [received]
        exact .forwarded free away client
  | epoch epoch =>
      simp only [Distributor.receiveLocal, Except.ok.injEq] at handled
      subst handled
      refine silent _ _ rfl rfl rfl rfl ?_ ?_
      · simp only [Effects.append, Distributor.handleEpoch]
        split
        · simp [Message.isSilent]
        · simp
      · simp only [Effects.append, Distributor.handleEpoch]
        split <;> simp [broadcast, NetworkMessage.isSilent]
  | absBarrier =>
      simp only [Distributor.receiveLocal, Except.ok.injEq] at handled
      subst handled
      refine ⟨?_, by simp [System.incoming], by rw [received]; rfl, rfl, rfl, fun _ => Iff.rfl⟩
      rw [received]
      exact .localBarrier free (addressedTo_broadcast_cases _ _)
        fun target client => by
          simp only [Distributor.handleLocalBarrier]
          rw [addressedTo_broadcast]
          exact if_pos client
  | rescale trigger => simp [Message.rescale?] at noRescale
  | suspendMarker =>
      simp only [Distributor.receiveLocal, Except.ok.injEq] at handled
      subst handled
      refine ⟨?_, by simp [System.incoming], by rw [received]; rfl, rfl, rfl, fun _ => Iff.rfl⟩
      rw [received]
      exact .localSuspend (addressedTo_broadcast_cases _ _)
  | interrogate =>
      simp only [Distributor.receiveLocal, Except.ok.injEq] at handled
      subst handled
      exact silent _ _ rfl rfl rfl rfl (by simp) (by simp)
  | collect key =>
      simp only [Distributor.receiveLocal, Except.ok.injEq] at handled
      subst handled
      exact silent _ _ rfl rfl rfl rfl (by simp) (by simp)
  | acquire acquire =>
      simp only [Distributor.receiveLocal, Except.ok.injEq] at handled
      subst handled
      exact silent _ _ rfl rfl rfl rfl (by simp) (by simp)

omit [DecidableEq K] [MaybeTime T] in
theorem turned_of_tryEmitBarrier (worker : WorkerId) :
    Turned job.partitioner workers system (.tryEmitBarrier worker)
      ((system.workers worker).after []
        (system.workers worker).distributor.tryEmitBarrier.1
        (system.workers worker).distributor.tryEmitBarrier.2)
      (system.workers worker).distributor.tryEmitBarrier.2.output
      (system.workers worker).distributor.tryEmitBarrier.2.network := by
  unfold Distributor.tryEmitBarrier
  split
  next ready =>
    rw [Bool.and_eq_true] at ready
    refine ⟨?_, by simp [System.incoming], rfl, rfl, rfl, fun _ => IndexMap.mem_mapValues⟩
    have turn : Turn (fun key => job.partitioner key workers) worker
        (fun remote => remote ∈ (system.workers worker).distributor.remotes)
        (system.workers worker).distributor.flags none []
        [(.absBarrier : Message K V T)] [] _ :=
      .barrier ready.1 fun remote client => by
        obtain ⟨state, found, good⟩ := flags_all ready.2 client
        simpa [Distributor.flags, found] using good
    have unbarred (remote : WorkerId) :
        (((system.workers worker).distributor.remotes.mapValues fun state =>
          { state with isBarred := false }).get? remote).any
            RemoteState.isBarred = false := by
      rw [IndexMap.get?_mapValues]
      cases (system.workers worker).distributor.remotes.get? remote <;> rfl
    have suspended (remote : WorkerId) :
        (((system.workers worker).distributor.remotes.mapValues fun state =>
          { state with isBarred := false }).get? remote).any
            RemoteState.sentSuspend =
          (system.workers worker).distributor.flags.sentSuspend remote := by
      rw [IndexMap.get?_mapValues]
      simp only [Distributor.flags]
      cases (system.workers worker).distributor.remotes.get? remote <;> rfl
    have flags : Distributor.flags { (system.workers worker).distributor with
          localBarrier := false
          remotes := (system.workers worker).distributor.remotes.mapValues
            fun state => { state with isBarred := false } } =
        { (system.workers worker).distributor.flags with
          localBarrier := false, isBarred := fun _ => false } := by
      simp only [Distributor.flags, unbarred, suspended]
    simp only [Worker.after, flags]
    exact turn
  next =>
    refine ⟨?_, by simp [System.incoming], rfl, rfl, rfl, fun _ => Iff.rfl⟩
    exact .silent (by simp [System.incoming]) (by simp [System.received])
      (by simp) (by simp)

omit [DecidableEq K] [MaybeTime T] in
theorem turned_of_tryEmitShutdown (worker : WorkerId) :
    Turned job.partitioner workers system (.tryEmitShutdown worker)
      ((system.workers worker).after []
        (system.workers worker).distributor.tryEmitShutdown.1
        (system.workers worker).distributor.tryEmitShutdown.2)
      (system.workers worker).distributor.tryEmitShutdown.2.output
      (system.workers worker).distributor.tryEmitShutdown.2.network := by
  unfold Distributor.tryEmitShutdown
  split
  next ready =>
    rw [Bool.and_eq_true] at ready
    refine ⟨?_, by simp [System.incoming], rfl, rfl, rfl, fun _ => Iff.rfl⟩
    refine .shutdown fun remote client => ?_
    obtain ⟨state, found, good⟩ := flags_all ready.2 client
    change ((system.workers worker).distributor.remotes.get? remote).any
      RemoteState.sentSuspend = true
    simpa [found] using good
  next =>
    refine ⟨?_, by simp [System.incoming], rfl, rfl, rfl, fun _ => Iff.rfl⟩
    exact .silent (by simp [System.incoming]) (by simp [System.received])
      (by simp) (by simp)

theorem System.turned (running :
      (system.workers event.worker).distributor.router =
        .normal ⟨workers, version⟩)
    (owned : ∀ remote message,
      system.incoming event = some (remote, .data message) →
        job.partitioner message.content.key workers = event.worker)
    (steady : ∀ message ∈ system.received event, message.rescale? = none)
    (stepped : system.step job event = .ok next) :
    next = system ∨ ∃ worker output outgoing,
      Turned job.partitioner workers system event worker output outgoing ∧
      next = system.moved event.worker (system.incoming event) worker
        outgoing := by
  have idle (worker : Worker K V T VO S L)
      (distributor : worker.distributor.router =
          (system.workers event.worker).distributor.router ∧
        worker.distributor.remotes =
          (system.workers event.worker).distributor.remotes ∧
        worker.distributor.flags =
          (system.workers event.worker).distributor.flags)
      (taken : worker.taken = (system.workers event.worker).taken)
      (handed : worker.handed = (system.workers event.worker).handed)
      (noIncoming : system.incoming event = none)
      (noReceived : system.received event = []) :
      Turned job.partitioner workers system event worker [] [] := by
    refine ⟨?_, by simp [noIncoming], by rw [noReceived, taken, List.append_nil],
      by rw [handed, List.append_nil], distributor.1,
      fun _ => by rw [distributor.2.1]⟩
    rw [distributor.2.2, noIncoming, noReceived]
    exact .silent (by simp) (by simp) (by simp) (by simp)
  cases event with
  | receiveRemote worker remote =>
      rcases receiveRemote_cases stepped with same |
        ⟨message, result, ready, _, incomingEquation, handled, equation⟩
      · exact .inl same
      · refine .inr ⟨_, _, _, turned_of_receiveRemote running ?_ ready
          incomingEquation handled, incomingEquation ▸ equation⟩
        rintro record rfl
        exact owned remote record incomingEquation
  | receiveLocal worker message =>
      rcases receiveLocal_cases stepped with same |
        ⟨result, free, receivedEquation, handled, equation⟩
      · exact .inl same
      · exact .inr ⟨_, _, _, turned_of_receiveLocal running
          (steady message (by simp [receivedEquation])) free receivedEquation
          handled, equation⟩
  | tryEmitBarrier worker =>
      simp only [step, Except.ok.injEq] at stepped
      subst stepped
      exact .inr ⟨_, _, _, turned_of_tryEmitBarrier worker,
        install_eq_moved'⟩
  | tryEmitShutdown worker =>
      simp only [step, Except.ok.injEq] at stepped
      subst stepped
      exact .inr ⟨_, _, _, turned_of_tryEmitShutdown worker,
        install_eq_moved'⟩
  | lifecycle worker =>
      change (system.workers worker).distributor.router = _ at running
      simp only [step, Distributor.lifecycle, MessageRouter.lifecycle, running,
        Except.ok.injEq] at stepped
      subst stepped
      refine .inr ⟨(system.workers worker).after []
          { (system.workers worker).distributor with
            router := .normal ⟨workers, version⟩ } {}, [], [], ?_,
        install_eq_moved'⟩
      exact idle _ ⟨running.symm, rfl, rfl⟩ (List.append_nil _)
        (List.append_nil _) rfl rfl
  | operator worker =>
      simp only [step, Except.ok.injEq] at stepped
      subst stepped
      change (system.workers worker).distributor.router = _ at running
      have untouched (report : Report K S) :
          (system.workers worker).distributor.takeReport report =
            (system.workers worker).distributor := by
        cases report <;> simp [Distributor.takeReport, running]
      right
      cases queueEquation : (system.workers worker).queue with
      | nil =>
          simp only [scheduleOperator, queueEquation]
          refine ⟨_, [], [], ?_, rfl⟩
          exact idle _ ⟨rfl, rfl, rfl⟩ rfl rfl rfl rfl
      | cons message rest =>
          simp only [scheduleOperator, queueEquation, untouched]
          refine ⟨_, [], [], ?_, rfl⟩
          exact idle _ ⟨rfl, rfl, rfl⟩ rfl rfl rfl rfl
  | sink worker =>
      simp only [step, Except.ok.injEq] at stepped
      subst stepped
      refine .inr ⟨_, [], [], ?_, rfl⟩
      exact idle _ ⟨rfl, rfl, rfl⟩ rfl rfl rfl rfl

end

end Keyed

end Malstrom
