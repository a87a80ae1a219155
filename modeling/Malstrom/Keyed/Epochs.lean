import Malstrom.Channels.Epochs
import Malstrom.Keyed.Alignment
import Malstrom.Keyed.Partitioners

namespace Malstrom

namespace Message

variable {K V T : Type}

def isTimed : Message K V T → Bool
  | .data _ | .epoch _ => true
  | .absBarrier | .rescale _ | .suspendMarker | .interrogate | .collect _
  | .acquire _ => false

end Message

namespace Keyed

open Data Channels MaybeTime Operators

variable {K V T VO S L : Type}

def NetworkMessage.isTimed : NetworkMessage K V T → Bool
  | .data _ | .epoch _ => true
  | .barrierMarker | .suspendMarker | .acquire _ | .upgrade _
  | .ackUpgrade _ => false

/-! What a distributor knows of its upstreams' time, and what one step tells
of it while no rescale is under way. -/

structure Frontiers (T : Type) where
  own : Option T
  remote : WorkerId → Option T

def Remotes.frontier (remotes : Remotes T) (worker : WorkerId) : Option T :=
  (remotes.get? worker).bind RemoteState.frontier

def Distributor.frontiers (distributor : Distributor K V T) : Frontiers T :=
  { own := distributor.localFrontier
    remote := distributor.remotes.frontier }

/-- The epoch is not ahead of any upstream. -/
structure Frontiers.Covers [LE T] (frontiers : Frontiers T)
    (clients : WorkerId → Prop) (epoch : T) : Prop where
  own : ∃ reached, frontiers.own = some reached ∧ epoch ≤ reached
  remote : ∀ other, clients other →
    ∃ reached, frontiers.remote other = some reached ∧ epoch ≤ reached

theorem Remotes.frontier_modify (remotes : Remotes T) (remote : WorkerId)
    (change : RemoteState T → RemoteState T)
    (keeps : ∀ state, (change state).frontier = state.frontier) :
    Remotes.frontier (remotes.modify remote change) = remotes.frontier := by
  funext worker
  simp only [frontier, IndexMap.get?_modify]
  split
  next same =>
    cases remotes.get? worker with
    | none => rfl
    | some state => exact keeps state
  next => rfl

theorem Remotes.frontier_mapValues (remotes : Remotes T)
    (change : RemoteState T → RemoteState T)
    (keeps : ∀ state, (change state).frontier = state.frontier) :
    Remotes.frontier (remotes.mapValues change) = remotes.frontier := by
  funext worker
  simp only [frontier, IndexMap.get?_mapValues]
  cases remotes.get? worker with
  | none => rfl
  | some state => exact keeps state

theorem Remotes.frontier_report (remotes : Remotes T) {remote : WorkerId}
    (client : remote ∈ remotes) (epoch : T) :
    Remotes.frontier (remotes.modify remote fun state =>
        { state with frontier := some epoch }) =
      Function.update remotes.frontier remote (some epoch) := by
  funext worker
  simp only [frontier, IndexMap.get?_modify, Function.update_apply]
  split
  next same =>
    subst same
    obtain ⟨state, found⟩ := IndexMap.exists_get?_of_mem client
    simp [found]
  next => rfl

theorem Distributor.mem_timestamps (distributor : Distributor K V T)
    (time : Option T) :
    time ∈ distributor.remotes.values.map RemoteState.frontier ++
        [distributor.localFrontier] ↔
      (∃ other ∈ distributor.remotes,
        time = distributor.frontiers.remote other) ∨
        time = distributor.frontiers.own := by
  simp only [List.mem_append, List.mem_map, List.mem_singleton, frontiers,
    Remotes.frontier]
  refine or_congr ⟨?_, ?_⟩ Iff.rfl
  · rintro ⟨state, member, rfl⟩
    obtain ⟨⟨other, _⟩, found, rfl⟩ := List.mem_map.mp member
    have known := IndexMap.get?_eq_some.mpr found
    exact ⟨other, IndexMap.mem_of_get?_eq_some known, by simp [known]⟩
  · rintro ⟨other, client, rfl⟩
    obtain ⟨state, known⟩ := IndexMap.exists_get?_of_mem client
    exact ⟨state, List.mem_map_of_mem (IndexMap.get?_eq_some.mp known),
      by simp [known]⟩

section

variable [LinearOrder T] [MaybeTime T]

/-- A distributor announces the least of all frontiers once it knows one of
every upstream. -/
theorem Distributor.handleEpoch_cases (merges : MergesMin T)
    (distributor : Distributor K V T) :
    distributor.handleEpoch = {} ∧
      (distributor.frontiers.own = none ∨ ∃ other ∈ distributor.remotes,
        distributor.frontiers.remote other = none) ∨
    ∃ epoch, distributor.handleEpoch = { output := [.epoch epoch] } ∧
      distributor.frontiers.Covers (· ∈ distributor.remotes) epoch ∧
      (distributor.frontiers.own = some epoch ∨
        ∃ other ∈ distributor.remotes,
          distributor.frontiers.remote other = some epoch) := by
  unfold handleEpoch
  cases merged : mergeTimestamps (distributor.remotes.values.map
      RemoteState.frontier ++ [distributor.localFrontier]) with
  | some epoch =>
      obtain ⟨attained, least⟩ := (mergeTimestamps_eq_some merges).mp merged
      refine .inr ⟨epoch, by simp only [merged], ⟨?_, ?_⟩, ?_⟩
      · exact least _ ((distributor.mem_timestamps _).mpr (.inr rfl))
      · intro other client
        exact least _ ((distributor.mem_timestamps _).mpr
          (.inl ⟨other, client, rfl⟩))
      · obtain ⟨other, client, known⟩ | known :=
          (distributor.mem_timestamps _).mp attained
        · exact .inr ⟨other, client, known.symm⟩
        · exact .inl known.symm
  | none =>
      refine .inl ⟨by simp only [merged], ?_⟩
      by_contra known
      push Not at known
      have all : ∀ time ∈ distributor.remotes.values.map RemoteState.frontier ++
          [distributor.localFrontier], time ≠ none := by
        intro time member
        obtain ⟨other, client, rfl⟩ | rfl :=
          (distributor.mem_timestamps time).mp member
        · exact known.2 other client
        · exact known.1
      obtain ⟨epoch, attained⟩ := mergeTimestamps_isSome merges
        (by simp) all
      simp [attained] at merged

/-- What a worker takes, hands downstream and sends of records and epochs in
one step, and what it knows of its upstreams before and after. -/
inductive Told (owner : K → WorkerId) (thisWorker : WorkerId)
    (clients : WorkerId → Prop) (frontiers : Frontiers T) :
    Option (WorkerId × NetworkMessage K V T) → List (Message K V T) →
      List (Message K V T) → List (WorkerId × NetworkMessage K V T) →
      Frontiers T → Prop
  | silent {incoming : Option (WorkerId × NetworkMessage K V T)}
      {received output : List (Message K V T)}
      {outgoing : List (WorkerId × NetworkMessage K V T)}
      (untimedIncoming : ∀ arrived ∈ incoming, arrived.2.isTimed = false)
      (untimedReceived : ∀ message ∈ received, message.isTimed = false)
      (untimedOutput : ∀ message ∈ output, message.isTimed = false)
      (untimedOutgoing : ∀ addressed ∈ outgoing,
        addressed.2.isTimed = false) :
      Told owner thisWorker clients frontiers incoming received output outgoing
        frontiers
  | kept {message : DataMessage K V T} :
      Told owner thisWorker clients frontiers none [.data message]
        [.data message] [] frontiers
  | forwarded {message : DataMessage K V T} {version : Version} :
      Told owner thisWorker clients frontiers none [.data message] []
        [(owner message.key, .data ⟨message, version⟩)] frontiers
  | arrived {remote : WorkerId} {message : NetworkDataMessage K V T} :
      Told owner thisWorker clients frontiers (some (remote, .data message)) []
        [.data message.content] [] frontiers
  | localEpoch {epoch : T} {output : List (Message K V T)}
      {outgoing : List (WorkerId × NetworkMessage K V T)}
      (emits : ∀ message ∈ output, ∃ emitted, message = .epoch emitted ∧
        Frontiers.Covers { frontiers with own := some epoch } clients emitted)
      (tells : ∀ addressed ∈ outgoing, addressed.2 = .epoch epoch) :
      Told owner thisWorker clients frontiers none [.epoch epoch] output
        outgoing { frontiers with own := some epoch }
  | remoteEpoch {remote : WorkerId} {epoch : T} {output : List (Message K V T)}
      (emits : ∀ message ∈ output, ∃ emitted, message = .epoch emitted ∧
        Frontiers.Covers { frontiers with
          remote := Function.update frontiers.remote remote (some epoch) }
          clients emitted) :
      Told owner thisWorker clients frontiers (some (remote, .epoch epoch)) []
        output [] { frontiers with
          remote := Function.update frontiers.remote remote (some epoch) }

/-- A step of one worker in front of which no rescale is under way. -/
structure Ticked (owner : K → WorkerId) (system : System K V T VO S L)
    (event : Event K V T) (worker : Worker K V T VO S L)
    (output : List (Message K V T))
    (outgoing : List (WorkerId × NetworkMessage K V T)) : Prop where
  told : Told owner event.worker
    (fun remote => remote ∈ (system.workers event.worker).distributor.remotes)
    (system.workers event.worker).distributor.frontiers (system.incoming event)
    (system.received event) output outgoing worker.distributor.frontiers
  taken : worker.taken =
    (system.workers event.worker).taken ++ system.received event
  handed : worker.handed = (system.workers event.worker).handed ++ output
  router : worker.distributor.router =
    (system.workers event.worker).distributor.router
  clients : ∀ remote, remote ∈ worker.distributor.remotes ↔
    remote ∈ (system.workers event.worker).distributor.remotes

theorem Distributor.handleEpoch_covers (merges : MergesMin T)
    (distributor : Distributor K V T) :
    distributor.handleEpoch.network = [] ∧
      ∀ message ∈ distributor.handleEpoch.output,
        ∃ emitted, message = .epoch emitted ∧
          distributor.frontiers.Covers (· ∈ distributor.remotes) emitted := by
  obtain ⟨nothing, -⟩ | ⟨epoch, announced, covers, -⟩ :=
    distributor.handleEpoch_cases merges
  · simp [nothing]
  · rw [announced]
    refine ⟨rfl, fun message member => ?_⟩
    exact ⟨epoch, List.mem_singleton.mp member, covers⟩

variable [DecidableEq K] {job : Job K V T VO S L}
  {workers : IndexSet WorkerId} {version : Version}
  {system next : System K V T VO S L} {event : Event K V T}

theorem ticked_of_receiveRemote (merges : MergesMin T)
    {worker remote : WorkerId} {message : NetworkMessage K V T}
    {result : Distributor K V T × Effects K V T}
    (running : (system.workers worker).distributor.router =
      .normal ⟨workers, version⟩)
    (owned : ∀ record, message = .data record →
      job.partitioner record.content.key workers = worker)
    (ready : (system.workers worker).distributor.canReceive remote = true)
    (incoming : system.incoming (.receiveRemote worker remote) =
      some (remote, message))
    (handled : (system.workers worker).distributor.receiveRemote remote message
      job.partitioner worker = .ok result) :
    Ticked (fun key => job.partitioner key workers) system
      (.receiveRemote worker remote)
      ((system.workers worker).after [] result.1 result.2) result.2.output
      result.2.network := by
  have client := (canReceive_flags ready).1
  have silent (change : RemoteState T → RemoteState T)
      (keeps : ∀ state, (change state).frontier = state.frontier)
      (effects : Effects K V T) (untimed : message.isTimed = false)
      (output : ∀ handed ∈ effects.output, handed.isTimed = false)
      (network : ∀ addressed ∈ effects.network,
        addressed.2.isTimed = false) :
      Ticked (fun key => job.partitioner key workers) system
        (.receiveRemote worker remote)
        ((system.workers worker).after []
          { (system.workers worker).distributor with
            remotes := (system.workers worker).distributor.remotes.modify
              remote change } effects) effects.output effects.network := by
    refine ⟨?_, rfl, rfl, rfl, fun _ => IndexMap.mem_modify⟩
    simp only [Worker.after, Distributor.frontiers,
      Remotes.frontier_modify _ remote change keeps, incoming]
    exact .silent (by simpa using untimed) (by simp [System.received]) output
      network
  cases message with
  | data record =>
      obtain ⟨same, ⟨effects, _⟩ | ⟨_, away, _⟩⟩ :=
        handleDataMessage_running running handled
      · rw [same, effects]
        refine ⟨?_, rfl, rfl, rfl, fun _ => Iff.rfl⟩
        rw [incoming]
        exact .arrived
      · exact absurd (owned record rfl) away
  | epoch epoch =>
      simp only [Distributor.receiveRemote, Except.ok.injEq] at handled
      subst handled
      refine ⟨?_, rfl, rfl, rfl, fun _ => IndexMap.mem_modify⟩
      obtain ⟨network, covers⟩ := Distributor.handleEpoch_covers merges
        { (system.workers worker).distributor with
          remotes := (system.workers worker).distributor.remotes.modify remote
            fun state => { state with frontier := some epoch } }
      simp only [Distributor.frontiers, Remotes.frontier_report _ client,
        IndexMap.mem_modify] at covers
      simp only [Worker.after, Distributor.frontiers, incoming, network,
        Remotes.frontier_report _ client]
      exact .remoteEpoch covers
  | barrierMarker =>
      simp only [Distributor.receiveRemote, Except.ok.injEq] at handled
      subst handled
      exact silent (fun state => { state with isBarred := true })
        (fun _ => rfl) {} rfl (by simp) (by simp)
  | suspendMarker =>
      simp only [Distributor.receiveRemote, Except.ok.injEq] at handled
      subst handled
      exact silent (fun state => { state with sentSuspend := true })
        (fun _ => rfl) {} rfl (by simp) (by simp)
  | acquire acquire =>
      simp only [Distributor.receiveRemote, Except.ok.injEq] at handled
      subst handled
      refine ⟨?_, rfl, rfl, rfl, fun _ => Iff.rfl⟩
      rw [incoming]
      exact .silent (by simp [NetworkMessage.isTimed])
        (by simp [System.received]) (by simp [Message.isTimed]) (by simp)
  | upgrade version =>
      simp only [Distributor.receiveRemote, Except.ok.injEq] at handled
      subst handled
      exact silent (fun state => { state with lastVersion := some version })
        (fun _ => rfl) { network := [(remote, .ackUpgrade version)] } rfl
        (by simp) (by simp [NetworkMessage.isTimed])
  | ackUpgrade version =>
      simp only [Distributor.receiveRemote, Except.ok.injEq] at handled
      subst handled
      exact silent (fun state => { state with lastAckVersion := some version })
        (fun _ => rfl) {} rfl (by simp) (by simp)

theorem ticked_of_receiveLocal (merges : MergesMin T) {worker : WorkerId}
    {message : Message K V T} {result : Distributor K V T × Effects K V T}
    (running : (system.workers worker).distributor.router =
      .normal ⟨workers, version⟩)
    (noRescale : message.rescale? = none)
    (received : system.received (.receiveLocal worker message) = [message])
    (handled : (system.workers worker).distributor.receiveLocal message
      job.partitioner worker = .ok result) :
    Ticked (fun key => job.partitioner key workers) system
      (.receiveLocal worker message)
      ((system.workers worker).after [message] result.1 result.2)
      result.2.output result.2.network := by
  have silent (distributor : Distributor K V T)
      (network : List (WorkerId × NetworkMessage K V T))
      (same : distributor.frontiers =
        (system.workers worker).distributor.frontiers)
      (router : distributor.router =
        (system.workers worker).distributor.router)
      (remotes : distributor.remotes =
        (system.workers worker).distributor.remotes)
      (untimed : message.isTimed = false)
      (outgoing : ∀ addressed ∈ network, addressed.2.isTimed = false) :
      Ticked (fun key => job.partitioner key workers) system
        (.receiveLocal worker message)
        ((system.workers worker).after [message] distributor
          { network := network }) [] network := by
    refine ⟨?_, by rw [received]; rfl, rfl, router, fun remote => ?_⟩
    · simp only [Worker.after, same, received]
      exact .silent (by simp [System.incoming]) (by simpa using untimed)
        (by simp) outgoing
    · change remote ∈ distributor.remotes ↔ _
      rw [remotes]
      rfl
  cases message with
  | data record =>
      obtain ⟨same, ⟨effects, here⟩ | ⟨effects, away, client⟩⟩ :=
        handleDataMessage_running running handled
      · rw [same, effects]
        refine ⟨?_, by rw [received]; rfl, rfl, rfl, fun _ => Iff.rfl⟩
        rw [received]
        exact .kept
      · rw [same, effects]
        refine ⟨?_, by rw [received]; rfl, rfl, rfl, fun _ => Iff.rfl⟩
        rw [received]
        exact .forwarded
  | epoch epoch =>
      simp only [Distributor.receiveLocal, Except.ok.injEq] at handled
      subst handled
      refine ⟨?_, by rw [received]; rfl, rfl, rfl, fun _ => Iff.rfl⟩
      obtain ⟨network, covers⟩ := Distributor.handleEpoch_covers merges
        { (system.workers worker).distributor with
          localFrontier := some epoch }
      simp only [Worker.after, Effects.append, received, network,
        List.append_nil, List.nil_append]
      refine .localEpoch covers ?_
      simp [broadcast]
  | absBarrier =>
      simp only [Distributor.receiveLocal, Except.ok.injEq] at handled
      subst handled
      exact silent _ _ rfl rfl rfl rfl
        (by simp [broadcast, NetworkMessage.isTimed])
  | rescale trigger => simp [Message.rescale?] at noRescale
  | suspendMarker =>
      simp only [Distributor.receiveLocal, Except.ok.injEq] at handled
      subst handled
      exact silent _ _ rfl rfl rfl rfl
        (by simp [broadcast, NetworkMessage.isTimed])
  | interrogate =>
      simp only [Distributor.receiveLocal, Except.ok.injEq] at handled
      subst handled
      exact silent _ _ rfl rfl rfl rfl (by simp)
  | collect key =>
      simp only [Distributor.receiveLocal, Except.ok.injEq] at handled
      subst handled
      exact silent _ _ rfl rfl rfl rfl (by simp)
  | acquire acquire =>
      simp only [Distributor.receiveLocal, Except.ok.injEq] at handled
      subst handled
      exact silent _ _ rfl rfl rfl rfl (by simp)

theorem System.ticked (merges : MergesMin T)
    (running : (system.workers event.worker).distributor.router =
      .normal ⟨workers, version⟩)
    (owned : ∀ remote message,
      system.incoming event = some (remote, .data message) →
        job.partitioner message.content.key workers = event.worker)
    (steady : ∀ message ∈ system.received event, message.rescale? = none)
    (stepped : system.step job event = .ok next) :
    next = system ∨ ∃ worker output outgoing,
      Ticked (fun key => job.partitioner key workers) system event worker output
        outgoing ∧
      next = system.moved event.worker (system.incoming event) worker
        outgoing := by
  have idle (worker : Worker K V T VO S L) (output : List (Message K V T))
      (router : worker.distributor.router =
        (system.workers event.worker).distributor.router)
      (clients : ∀ remote, remote ∈ worker.distributor.remotes ↔
        remote ∈ (system.workers event.worker).distributor.remotes)
      (frontiers : worker.distributor.frontiers =
        (system.workers event.worker).distributor.frontiers)
      (taken : worker.taken = (system.workers event.worker).taken)
      (handed : worker.handed = (system.workers event.worker).handed ++ output)
      (untimed : ∀ message ∈ output, message.isTimed = false)
      (noIncoming : system.incoming event = none)
      (noReceived : system.received event = []) :
      Ticked (fun key => job.partitioner key workers) system event worker output
        [] := by
    refine ⟨?_, by rw [noReceived, taken, List.append_nil], handed, router,
      clients⟩
    rw [frontiers, noIncoming, noReceived]
    exact .silent (by simp) (by simp) untimed (by simp)
  cases event with
  | receiveRemote worker remote =>
      rcases receiveRemote_cases stepped with same |
        ⟨message, result, ready, _, incomingEquation, handled, equation⟩
      · exact .inl same
      · refine .inr ⟨_, _, _, ticked_of_receiveRemote merges running ?_ ready
          incomingEquation handled, incomingEquation ▸ equation⟩
        rintro record rfl
        exact owned remote record incomingEquation
  | receiveLocal worker message =>
      rcases receiveLocal_cases stepped with same |
        ⟨result, _, receivedEquation, handled, equation⟩
      · exact .inl same
      · exact .inr ⟨_, _, _, ticked_of_receiveLocal merges running
          (steady message (by simp [receivedEquation])) receivedEquation
          handled, equation⟩
  | tryEmitBarrier worker =>
      simp only [step, Except.ok.injEq] at stepped
      subst stepped
      refine .inr ⟨_, (system.workers worker).distributor.tryEmitBarrier.2.output,
        _, ?_, install_eq_moved'⟩
      unfold Distributor.tryEmitBarrier
      split
      · refine idle _ [.absBarrier] rfl (fun _ => IndexMap.mem_mapValues) ?_
          (List.append_nil _) rfl (by simp [Message.isTimed]) rfl rfl
        simp only [Worker.after, Distributor.frontiers]
        rw [Remotes.frontier_mapValues]
        · rfl
        · exact fun _ => rfl
      · exact idle _ [] rfl (fun _ => Iff.rfl) rfl (List.append_nil _) rfl
          (by simp) rfl rfl
  | tryEmitShutdown worker =>
      simp only [step, Except.ok.injEq] at stepped
      subst stepped
      refine .inr ⟨_, (system.workers worker).distributor.tryEmitShutdown.2.output,
        _, ?_, install_eq_moved'⟩
      unfold Distributor.tryEmitShutdown
      split
      · exact idle _ [.suspendMarker] rfl (fun _ => Iff.rfl) rfl
          (List.append_nil _) rfl (by simp [Message.isTimed]) rfl rfl
      · exact idle _ [] rfl (fun _ => Iff.rfl) rfl (List.append_nil _) rfl
          (by simp) rfl rfl
  | lifecycle worker =>
      change (system.workers worker).distributor.router = _ at running
      simp only [step, Distributor.lifecycle, MessageRouter.lifecycle, running,
        Except.ok.injEq] at stepped
      subst stepped
      refine .inr ⟨(system.workers worker).after []
          { (system.workers worker).distributor with
            router := .normal ⟨workers, version⟩ } {}, [], [], ?_,
        install_eq_moved'⟩
      exact idle _ [] running.symm (fun _ => Iff.rfl) rfl (List.append_nil _)
        rfl (by simp) rfl rfl
  | operator worker =>
      simp only [step, Except.ok.injEq] at stepped
      subst stepped
      change (system.workers worker).distributor.router = _ at running
      have untouched (report : Report K S) :
          (system.workers worker).distributor.takeReport report =
            (system.workers worker).distributor := by
        cases report <;> simp [Distributor.takeReport, running]
      right
      cases queueEquation : (system.workers worker).queue with
      | nil =>
          simp only [scheduleOperator, queueEquation]
          refine ⟨_, [], [], ?_, rfl⟩
          exact idle _ [] rfl (fun _ => Iff.rfl) rfl rfl
            (List.append_nil _).symm (by simp) rfl rfl
      | cons message rest =>
          simp only [scheduleOperator, queueEquation, untouched]
          refine ⟨_, [], [], ?_, rfl⟩
          exact idle _ [] rfl (fun _ => Iff.rfl) rfl rfl
            (List.append_nil _).symm (by simp) rfl rfl
  | sink worker =>
      simp only [step, Except.ok.injEq] at stepped
      subst stepped
      refine .inr ⟨_, [], [], ?_, rfl⟩
      exact idle _ [] rfl (fun _ => Iff.rfl) rfl rfl (List.append_nil _).symm
        (by simp) rfl rfl

end

/-! What is under way between two workers is later than what the receiver has
announced, because the sender's upstream keeps its promise. -/

section

variable [LinearOrder T]

structure Timed (owner : K → WorkerId) (source target : WorkerId)
    (sender receiver : Worker K V T VO S L)
    (link : List (NetworkMessage K V T)) : Prop where
  owned : ∀ message, .data message ∈ link → owner message.content.key = target
  told : ∀ epoch, .epoch epoch ∈ link → .epoch epoch ∈ sender.taken
  known : ∀ epoch, receiver.distributor.frontiers.remote source = some epoch →
    .epoch epoch ∈ sender.taken
  behind : ∀ epoch, .epoch epoch ∈ receiver.handed →
    ∃ reached, .epoch reached ∈ sender.taken ∧ epoch ≤ reached
  later : ∀ message, .data message ∈ link → ∀ epoch,
    receiver.distributor.frontiers.remote source = some epoch ∨
      .epoch epoch ∈ receiver.handed → epoch < message.content.timestamp
  ordered : link.Pairwise fun earlier later => ∀ epoch message,
    earlier = .epoch epoch → later = .data message →
      epoch < message.content.timestamp

namespace Timed

variable {owner : K → WorkerId} {source target : WorkerId}
  {sender receiver : Worker K V T VO S L} {link : List (NetworkMessage K V T)}

/-- The sender goes on: it sends no record which is not later than all epochs
it has taken. -/
theorem send (timed : Timed owner source target sender receiver link)
    {next : Worker K V T VO S L} {more : List (NetworkMessage K V T)}
    (grows : ∀ message ∈ sender.taken, message ∈ next.taken)
    (owned : ∀ message, .data message ∈ more →
      owner message.content.key = target)
    (told : ∀ epoch, .epoch epoch ∈ more → .epoch epoch ∈ next.taken)
    (later : ∀ message, .data message ∈ more → ∀ epoch,
      .epoch epoch ∈ sender.taken → epoch < message.content.timestamp)
    (ordered : more.Pairwise fun earlier later => ∀ epoch message,
      earlier = .epoch epoch → later = .data message →
        epoch < message.content.timestamp) :
    Timed owner source target next receiver (link ++ more) where
  owned message member := by
    cases List.mem_append.mp member with
    | inl before => exact timed.owned message before
    | inr isNew => exact owned message isNew
  told epoch member := by
    cases List.mem_append.mp member with
    | inl before => exact grows _ (timed.told epoch before)
    | inr isNew => exact told epoch isNew
  known epoch found := grows _ (timed.known epoch found)
  behind epoch announced := by
    obtain ⟨reached, taken, atMost⟩ := timed.behind epoch announced
    exact ⟨reached, grows _ taken, atMost⟩
  later message member epoch known := by
    cases List.mem_append.mp member with
    | inl before => exact timed.later message before epoch known
    | inr isNew =>
        cases known with
        | inl found => exact later message isNew epoch (timed.known epoch found)
        | inr announced =>
            obtain ⟨reached, taken, atMost⟩ := timed.behind epoch announced
            exact lt_of_le_of_lt atMost (later message isNew reached taken)
  ordered := by
    refine List.pairwise_append.mpr ⟨timed.ordered, ordered, ?_⟩
    rintro earlier member next isNew epoch message rfl rfl
    exact later message isNew epoch (timed.told epoch member)

/-- The receiver goes on: it announces nothing ahead of what it knows of the
sender. -/
theorem keep (timed : Timed owner source target sender receiver link)
    {next : Worker K V T VO S L}
    (known : next.distributor.frontiers.remote source =
      receiver.distributor.frontiers.remote source)
    (announced : ∀ epoch, .epoch epoch ∈ next.handed →
      .epoch epoch ∈ receiver.handed ∨ ∃ reached,
        receiver.distributor.frontiers.remote source = some reached ∧
          epoch ≤ reached) :
    Timed owner source target sender next link where
  owned := timed.owned
  told := timed.told
  known epoch found := timed.known epoch (known ▸ found)
  behind epoch handed := by
    cases announced epoch handed with
    | inl before => exact timed.behind epoch before
    | inr isNew =>
        obtain ⟨reached, found, atMost⟩ := isNew
        exact ⟨reached, timed.known reached found, atMost⟩
  later message member epoch either := by
    have before : receiver.distributor.frontiers.remote source = some epoch ∨
        .epoch epoch ∈ receiver.handed ∨ ∃ reached,
          receiver.distributor.frontiers.remote source = some reached ∧
            epoch ≤ reached := by
      rw [← known]
      exact either.imp id fun handed => known ▸ announced epoch handed
    rcases before with found | handed | ⟨reached, found, atMost⟩
    · exact timed.later message member epoch (.inl found)
    · exact timed.later message member epoch (.inr handed)
    · exact lt_of_le_of_lt atMost
        (timed.later message member reached (.inl found))
  ordered := timed.ordered

/-- The receiver takes the first message off the link. -/
theorem tail {message : NetworkMessage K V T}
    (timed : Timed owner source target sender receiver (message :: link)) :
    Timed owner source target sender receiver link where
  owned other member := timed.owned other (.tail _ member)
  told epoch member := timed.told epoch (.tail _ member)
  known := timed.known
  behind := timed.behind
  later other member := timed.later other (.tail _ member)
  ordered := (List.pairwise_cons.mp timed.ordered).2

/-- The receiver takes an epoch of the sender off the link. -/
theorem advance {epoch : T} (timed : Timed owner source target sender receiver
      (.epoch epoch :: link)) {next : Worker K V T VO S L}
    (known : next.distributor.frontiers.remote source = some epoch)
    (announced : ∀ reached, .epoch reached ∈ next.handed →
      .epoch reached ∈ receiver.handed ∨ reached ≤ epoch) :
    Timed owner source target sender next link where
  owned := timed.tail.owned
  told := timed.tail.told
  known reached found := by
    obtain rfl : epoch = reached := by simpa [known] using found
    exact timed.told epoch List.mem_cons_self
  behind reached handed := by
    cases announced reached handed with
    | inl before => exact timed.behind reached before
    | inr atMost => exact ⟨epoch, timed.told epoch List.mem_cons_self, atMost⟩
  later message member reached either := by
    have following : epoch < message.content.timestamp :=
      (List.pairwise_cons.mp timed.ordered).1 _ member epoch message rfl rfl
    cases either with
    | inl found =>
        obtain rfl : epoch = reached := by simpa [known] using found
        exact following
    | inr handed =>
        cases announced reached handed with
        | inl before => exact timed.tail.later message member reached (.inr before)
        | inr atMost => exact lt_of_le_of_lt atMost following
  ordered := timed.tail.ordered

end Timed

/-- The workers run with the given set, each at its version. -/
structure Timely (partitioner : WorkerPartitioner K)
    (workers : IndexSet WorkerId) (system : System K V T VO S L) : Prop where
  running : ∀ worker ∈ workers, (∃ version,
      (system.workers worker).distributor.router = .normal ⟨workers, version⟩) ∧
    ∀ other, other ∈ (system.workers worker).distributor.remotes ↔
      other ∈ workers ∧ other ≠ worker
  reached : ∀ worker ∈ workers, ∀ epoch,
    (system.workers worker).distributor.frontiers.own = some epoch →
      .epoch epoch ∈ (system.workers worker).taken
  behind : ∀ worker ∈ workers, ∀ epoch,
    .epoch epoch ∈ (system.workers worker).handed →
      ∃ reached, .epoch reached ∈ (system.workers worker).taken ∧
        epoch ≤ reached
  promise : ∀ worker ∈ workers, Promise (system.workers worker).handed
  timed : ∀ source target, source ≠ target → source ∈ workers →
    target ∈ workers → Timed (fun key => partitioner key workers) source target
      (system.workers source) (system.workers target)
      (system.links source target)

/-- What the environment may do while no rescale is under way: the workers of
the set run. -/
structure Stays (workers : IndexSet WorkerId) (system : System K V T VO S L)
    (event : Event K V T) : Prop where
  member : event.worker ∈ workers
  received : ∀ message ∈ system.received event, message.rescale? = none

instance (workers : IndexSet WorkerId) (system : System K V T VO S L)
    (event : Event K V T) : Decidable (Stays workers system event) :=
  decidable_of_iff (event.worker ∈ workers ∧
    ∀ message ∈ system.received event, message.rescale? = none)
    ⟨fun both => ⟨both.1, both.2⟩, fun stays => ⟨stays.member, stays.received⟩⟩

namespace Ticked

variable {owner : K → WorkerId} {system : System K V T VO S L}
  {event : Event K V T} {worker : Worker K V T VO S L}
  {output : List (Message K V T)}
  {outgoing : List (WorkerId × NetworkMessage K V T)}

omit [LinearOrder T] in
theorem untimed {messages : List (Message K V T)}
    (untimed : ∀ message ∈ messages, message.isTimed = false) :
    (∀ epoch, .epoch epoch ∉ messages) ∧ ∀ record, .data record ∉ messages :=
  ⟨fun epoch member => by simpa [Message.isTimed] using untimed _ member,
    fun record member => by simpa [Message.isTimed] using untimed _ member⟩

/-- What is announced in a step is not ahead of any upstream. -/
theorem announces (ticked : Ticked owner system event worker output outgoing)
    {epoch : T} (announced : .epoch epoch ∈ output) :
    worker.distributor.frontiers.Covers
      (fun remote =>
        remote ∈ (system.workers event.worker).distributor.remotes) epoch := by
  have told := ticked.told
  generalize worker.distributor.frontiers = frontiers at told ⊢
  generalize system.incoming event = incoming at told
  generalize system.received event = received at told
  cases told with
  | silent _ _ untimedOutput _ =>
      exact absurd announced ((untimed untimedOutput).1 epoch)
  | kept => simp at announced
  | forwarded => simp at announced
  | arrived => simp at announced
  | localEpoch emits _ =>
      obtain ⟨emitted, same, covers⟩ := emits _ announced
      obtain rfl := Message.epoch.inj same
      exact covers
  | remoteEpoch emits =>
      obtain ⟨emitted, same, covers⟩ := emits _ announced
      obtain rfl := Message.epoch.inj same
      exact covers

theorem own (ticked : Ticked owner system event worker output outgoing)
    (before : ∀ epoch,
      (system.workers event.worker).distributor.frontiers.own = some epoch →
        .epoch epoch ∈ (system.workers event.worker).taken) (epoch : T)
    (known : worker.distributor.frontiers.own = some epoch) :
    .epoch epoch ∈ worker.taken := by
  rw [ticked.taken, List.mem_append]
  have told := ticked.told
  generalize worker.distributor.frontiers = frontiers at told known
  generalize system.incoming event = incoming at told
  generalize system.received event = received at told ⊢
  cases told with
  | silent _ _ _ _ => exact .inl (before epoch known)
  | kept => exact .inl (before epoch known)
  | forwarded => exact .inl (before epoch known)
  | arrived => exact .inl (before epoch known)
  | localEpoch _ _ =>
      obtain rfl := Option.some.inj known
      exact .inr List.mem_cons_self
  | remoteEpoch _ => exact .inl (before epoch known)

theorem remote (ticked : Ticked owner system event worker output outgoing)
    {source : WorkerId} (elsewhere : ∀ epoch,
      system.incoming event ≠ some (source, .epoch epoch)) :
    worker.distributor.frontiers.remote source =
      (system.workers event.worker).distributor.frontiers.remote source := by
  have told := ticked.told
  generalize worker.distributor.frontiers = frontiers at told ⊢
  generalize system.incoming event = incoming at told elsewhere
  generalize system.received event = received at told
  cases told with
  | silent _ _ _ _ => rfl
  | kept => rfl
  | forwarded => rfl
  | arrived => rfl
  | localEpoch _ _ => rfl
  | @remoteEpoch sender epoch _ _ =>
      refine Function.update_of_ne ?_ _ _
      rintro rfl
      exact elsewhere epoch rfl

theorem hands (ticked : Ticked owner system event worker output outgoing)
    {record : DataMessage K V T} (handed : .data record ∈ output) :
    output = [.data record] ∧ (.data record ∈ system.received event ∨
      ∃ remote message, system.incoming event = some (remote, .data message) ∧
        message.content = record) := by
  have told := ticked.told
  generalize worker.distributor.frontiers = frontiers at told
  generalize system.incoming event = incoming at told ⊢
  generalize system.received event = received at told ⊢
  cases told with
  | silent _ _ untimedOutput _ =>
      exact absurd handed ((untimed untimedOutput).2 record)
  | kept =>
      obtain rfl : record = _ := by simpa using handed
      exact ⟨rfl, .inl List.mem_cons_self⟩
  | forwarded => simp at handed
  | @arrived remote message =>
      obtain rfl : record = message.content := by simpa using handed
      exact ⟨rfl, .inr ⟨remote, message, rfl, rfl⟩⟩
  | localEpoch emits _ =>
      obtain ⟨emitted, same, -⟩ := emits _ handed
      simp at same
  | remoteEpoch emits =>
      obtain ⟨emitted, same, -⟩ := emits _ handed
      simp at same

theorem sends (ticked : Ticked owner system event worker output outgoing)
    (target : WorkerId) :
    (∀ message, .data message ∈ Links.addressedTo target outgoing →
      owner message.content.key = target ∧
        .data message.content ∈ system.received event) ∧
    (∀ epoch, .epoch epoch ∈ Links.addressedTo target outgoing →
      .epoch epoch ∈ system.received event) ∧
    (Links.addressedTo target outgoing).Pairwise fun earlier later =>
      ∀ epoch message, earlier = .epoch epoch → later = .data message →
        epoch < message.content.timestamp := by
  have told := ticked.told
  have quiet (noRecord : ∀ addressed ∈ outgoing, ∀ message,
      addressed.2 ≠ .data message) :
      (Links.addressedTo target outgoing).Pairwise fun earlier later =>
        ∀ epoch message, earlier = .epoch epoch → later = .data message →
          epoch < message.content.timestamp := by
    refine List.pairwise_of_forall_mem_list fun earlier _ later member => ?_
    rintro epoch message rfl rfl
    exact absurd rfl (noRecord _ (Links.mem_addressedTo.mp member) message)
  generalize worker.distributor.frontiers = frontiers at told
  generalize system.incoming event = incoming at told
  generalize system.received event = received at told ⊢
  cases told with
  | silent _ _ _ untimedOutgoing =>
      refine ⟨fun message sent => ?_, fun epoch sent => ?_,
        quiet fun addressed member message isRecord => ?_⟩
      · have := untimedOutgoing _ (Links.mem_addressedTo.mp sent)
        simp [NetworkMessage.isTimed] at this
      · have := untimedOutgoing _ (Links.mem_addressedTo.mp sent)
        simp [NetworkMessage.isTimed] at this
      · have := untimedOutgoing _ member
        simp [isRecord, NetworkMessage.isTimed] at this
  | kept => simp
  | @forwarded record version =>
      rw [Links.addressedTo_cons]
      split
      next same => simp [same]
      next => simp
  | arrived => simp
  | localEpoch _ tells =>
      refine ⟨fun message sent => ?_, fun epoch sent => ?_,
        quiet fun addressed member message isRecord => ?_⟩
      · have := tells _ (Links.mem_addressedTo.mp sent)
        simp at this
      · have := tells _ (Links.mem_addressedTo.mp sent)
        simpa using this
      · have := tells _ member
        simp [isRecord] at this
  | remoteEpoch _ => simp

theorem heard (ticked : Ticked owner system event worker output outgoing)
    {source : WorkerId} {epoch : T}
    (incoming : system.incoming event = some (source, .epoch epoch)) :
    worker.distributor.frontiers.remote source = some epoch := by
  have told := ticked.told
  generalize worker.distributor.frontiers = frontiers at told ⊢
  generalize system.received event = received at told
  rw [incoming] at told
  cases told with
  | silent untimedIncoming _ _ _ =>
      have := untimedIncoming _ rfl
      simp [NetworkMessage.isTimed] at this
  | remoteEpoch _ => exact Function.update_self ..

end Ticked

theorem Promise.announce {handed output : List (Message K V T)}
    (promise : Promise handed)
    (follows : ∀ record, .data record ∈ output → output = [.data record] ∧
      ∀ epoch, .epoch epoch ∈ handed → epoch < record.timestamp) :
    Promise (handed ++ output) := by
  refine List.pairwise_append.mpr ⟨promise, ?_, ?_⟩
  · refine List.pairwise_of_forall_mem_list fun earlier isFirst later isLater => ?_
    rintro epoch record rfl rfl
    have single := (follows record isLater).1
    simp [single] at isFirst
  · rintro earlier isFirst later isLater epoch record rfl rfl
    exact (follows record isLater).2 epoch isFirst

section

variable {job : Job K V T VO S L} {workers : IndexSet WorkerId}
  {system next : System K V T VO S L} {event : Event K V T}
  {worker : Worker K V T VO S L} {output : List (Message K V T)}
  {outgoing : List (WorkerId × NetworkMessage K V T)}

theorem Timely.incoming (timely : Timely job.partitioner workers system)
    (stays : Stays workers system event) {source : WorkerId}
    {message : NetworkMessage K V T}
    (found : system.incoming event = some (source, message)) :
    source ∈ workers ∧ source ≠ event.worker ∧
      message ∈ system.links source event.worker := by
  obtain ⟨client, head⟩ := System.incoming_head found
  obtain ⟨isMember, isOther⟩ :=
    ((timely.running _ stays.member).2 source).mp client
  exact ⟨isMember, isOther, List.mem_of_head? head⟩

theorem Ticked.grows
    (ticked : Ticked (fun key => job.partitioner key workers) system event
      worker output outgoing) {message : Message K V T}
    (member : message ∈ (system.workers event.worker).taken) :
    message ∈ worker.taken := by
  rw [ticked.taken]
  exact List.mem_append_left _ member

/-- A record is later than the epochs which were taken before it. -/
theorem Ticked.follows
    (ticked : Ticked (fun key => job.partitioner key workers) system event
      worker output outgoing) (promise : Promise worker.taken)
    {record : DataMessage K V T} {epoch : T}
    (received : .data record ∈ system.received event)
    (taken : .epoch epoch ∈ (system.workers event.worker).taken) :
    epoch < record.timestamp := by
  rw [ticked.taken] at promise
  exact (List.pairwise_append.mp promise).2.2 _ taken _ received epoch record rfl
    rfl

theorem Ticked.behind
    (ticked : Ticked (fun key => job.partitioner key workers) system event
      worker output outgoing)
    (timely : Timely job.partitioner workers system)
    (stays : Stays workers system event) {epoch : T}
    (handed : .epoch epoch ∈ worker.handed) :
    ∃ reached, .epoch reached ∈ worker.taken ∧ epoch ≤ reached := by
  rw [ticked.handed, List.mem_append] at handed
  cases handed with
  | inl before =>
      obtain ⟨reached, taken, atMost⟩ :=
        timely.behind event.worker stays.member epoch before
      exact ⟨reached, ticked.grows taken, atMost⟩
  | inr announced =>
      obtain ⟨reached, known, atMost⟩ := (ticked.announces announced).own
      exact ⟨reached, ticked.own (timely.reached event.worker stays.member)
        reached known, atMost⟩

theorem Ticked.promise
    (ticked : Ticked (fun key => job.partitioner key workers) system event
      worker output outgoing)
    (timely : Timely job.partitioner workers system)
    (stays : Stays workers system event) (promise : Promise worker.taken) :
    Promise worker.handed := by
  rw [ticked.handed]
  refine Promise.announce (timely.promise event.worker stays.member)
    fun record handed => ?_
  obtain ⟨single, local' | ⟨source, message, found, rfl⟩⟩ :=
    ticked.hands handed
  · refine ⟨single, fun epoch announced => ?_⟩
    obtain ⟨reached, taken, atMost⟩ :=
      timely.behind event.worker stays.member epoch announced
    exact lt_of_le_of_lt atMost (ticked.follows promise local' taken)
  · obtain ⟨isMember, isOther, linked⟩ := timely.incoming stays found
    exact ⟨single, fun epoch announced =>
      (timely.timed source event.worker isOther isMember stays.member).later
        message linked epoch (.inr announced)⟩

theorem Ticked.timed
    (ticked : Ticked (fun key => job.partitioner key workers) system event
      worker output outgoing)
    (timely : Timely job.partitioner workers system)
    (stays : Stays workers system event) (promise : Promise worker.taken)
    {source target : WorkerId} (apart : source ≠ target) :
    source ∈ workers → target ∈ workers →
      Timed (fun key => job.partitioner key workers) source target
        ((system.moved event.worker (system.incoming event) worker
          outgoing).workers source)
        ((system.moved event.worker (system.incoming event) worker
          outgoing).workers target)
        ((system.moved event.worker (system.incoming event) worker
          outgoing).links source target) := by
  have clients := (timely.running _ stays.member).2
  have covered {source : WorkerId} (isSource : source ∈ workers)
      (other : source ≠ event.worker) {epoch : T}
      (announced : .epoch epoch ∈ output) :=
    (ticked.announces announced).remote source
      ((clients source).mpr ⟨isSource, other⟩)
  revert apart
  revert source target
  apply System.moved_pairwise (fun source target sender receiver link =>
    source ∈ workers → target ∈ workers →
      Timed (fun key => job.partitioner key workers) source target sender
        receiver link)
  · exact timely.timed
  · intro arrived found
    obtain ⟨client, head⟩ := System.incoming_head found
    exact ⟨((clients arrived.1).mp client).2, head⟩
  · intro target _ before isSource isTarget
    obtain ⟨records, epochs, ordered⟩ := ticked.sends target
    refine (before isSource isTarget).send (fun _ => ticked.grows)
      (fun message sent => (records message sent).1) ?_ ?_ ordered
    · intro epoch sent
      rw [ticked.taken]
      exact List.mem_append_right _ (epochs epoch sent)
    · intro message sent epoch taken
      exact ticked.follows promise (records message sent).2 taken
  · intro source other elsewhere before isSource isTarget
    have same : worker.distributor.frontiers.remote source = _ :=
      ticked.remote fun epoch found => elsewhere (by simp [found])
    refine (before isSource isTarget).keep same fun epoch handed => ?_
    rw [ticked.handed, List.mem_append] at handed
    refine handed.imp id fun announced => ?_
    rw [← same]
    exact covered isSource other announced
  · intro source message rest other found before isSource isTarget
    cases isEpoch : message with
    | epoch epoch =>
        subst isEpoch
        refine (before isSource isTarget).advance (ticked.heard found)
          fun reached handed => ?_
        rw [ticked.handed, List.mem_append] at handed
        refine handed.imp id fun announced => ?_
        obtain ⟨known, isKnown, atMost⟩ := covered isSource other announced
        obtain rfl : epoch = known := by
          simpa [ticked.heard found] using isKnown
        exact atMost
    | _ =>
        have same : worker.distributor.frontiers.remote source = _ :=
          ticked.remote (by simp [found, isEpoch])
        refine (before isSource isTarget).tail.keep same fun epoch handed => ?_
        rw [ticked.handed, List.mem_append] at handed
        refine handed.imp id fun announced => ?_
        rw [← same]
        exact covered isSource other announced

theorem Timely.step [DecidableEq K] [MaybeTime T] (merges : MergesMin T)
    (timely : Timely job.partitioner workers system)
    (stays : Stays workers system event)
    (stepped : system.step job event = .ok next)
    (promises : ∀ worker ∈ workers, Promise (next.workers worker).taken) :
    Timely job.partitioner workers next := by
  obtain ⟨⟨version, isNormal⟩, clients⟩ := timely.running _ stays.member
  have owned (source : WorkerId) (message : NetworkDataMessage K V T)
      (found : system.incoming event = some (source, .data message)) :
      job.partitioner message.content.key workers = event.worker := by
    obtain ⟨isMember, isOther, linked⟩ := timely.incoming stays found
    exact (timely.timed source event.worker isOther isMember
      stays.member).owned message linked
  rcases System.ticked merges isNormal owned stays.received stepped with
    rfl | ⟨worker, output, outgoing, ticked, rfl⟩
  · exact timely
  have promise : Promise worker.taken := by
    simpa [System.moved_worker] using promises event.worker stays.member
  refine ⟨?_, ?_, ?_, ?_,
    fun source target => ticked.timed timely stays promise⟩
  · intro other member
    rw [System.moved_worker]
    split
    next same =>
      subst same
      exact ⟨⟨version, ticked.router.trans isNormal⟩,
        fun remote => (ticked.clients remote).trans (clients remote)⟩
    next => exact timely.running other member
  · intro other member
    rw [System.moved_worker]
    split
    next same =>
      subst same
      exact ticked.own (timely.reached event.worker member)
    next => exact timely.reached other member
  · intro other member epoch handed
    rw [System.moved_worker] at handed ⊢
    split at handed
    next same =>
      rw [if_pos same]
      exact ticked.behind timely stays handed
    next elsewhere =>
      rw [if_neg elsewhere]
      exact timely.behind other member epoch handed
  · intro other member
    rw [System.moved_worker]
    split
    next same => exact ticked.promise timely stays promise
    next => exact timely.promise other member

end

/-- The workers run with the same set and have told each other nothing yet. -/
structure Unheard (workers : IndexSet WorkerId)
    (system : System K V T VO S L) : Prop where
  running : ∀ worker ∈ workers, (∃ version,
      (system.workers worker).distributor.router = .normal ⟨workers, version⟩) ∧
    ∀ other, other ∈ (system.workers worker).distributor.remotes ↔
      other ∈ workers ∧ other ≠ worker
  own : ∀ worker ∈ workers,
    (system.workers worker).distributor.frontiers.own = none
  remote : ∀ worker ∈ workers, ∀ other,
    (system.workers worker).distributor.frontiers.remote other = none
  handed : ∀ worker ∈ workers, (system.workers worker).handed = []
  links : ∀ source target, system.links source target = []

omit [LinearOrder T] in
theorem Unheard.initial (job : Job K V T VO S L)
    (workers : IndexSet WorkerId) :
    Unheard workers (System.initial job workers) where
  running worker _ := ⟨⟨0, rfl⟩, fun _ => mem_build_remotes⟩
  own _ _ := rfl
  remote worker _ other := by
    simp only [System.initial, Worker.build, Distributor.fresh,
      Distributor.frontiers, Remotes.frontier, Remotes.get?_ofWorkers]
    split <;> rfl
  handed _ _ := rfl
  links _ _ := rfl

theorem Unheard.timely {workers : IndexSet WorkerId}
    {system : System K V T VO S L} (unheard : Unheard workers system)
    (partitioner : WorkerPartitioner K) :
    Timely partitioner workers system where
  running := unheard.running
  reached worker member epoch known := by
    simp [unheard.own worker member] at known
  behind worker member epoch handed := by
    simp [unheard.handed worker member] at handed
  promise worker member := by
    rw [unheard.handed worker member]
    exact List.Pairwise.nil
  timed source target _ _ member := by
    rw [unheard.links]
    refine ⟨by simp, by simp, fun epoch known => ?_, fun epoch handed => ?_,
      by simp, List.Pairwise.nil⟩
    · simp [unheard.remote target member source] at known
    · simp [unheard.handed target member] at handed

omit [LinearOrder T] in
theorem System.taken_step [DecidableEq K] [MaybeTime T]
    {job : Job K V T VO S L} {system next : System K V T VO S L}
    {event : Event K V T} (stepped : system.step job event = .ok next)
    (worker : WorkerId) :
    ∃ more, (next.workers worker).taken =
      (system.workers worker).taken ++ more := by
  rcases System.step_cases stepped with rfl | ⟨moved, outgoing, move, rfl⟩
  · exact ⟨[], (List.append_nil _).symm⟩
  · rw [System.moved_worker]
    split
    next same =>
      subst same
      exact ⟨_, move.taken⟩
    next => exact ⟨[], (List.append_nil _).symm⟩

/-- As long as the worker set does not change, no distributor hands a record
downstream which an epoch it has handed downstream rules out, if the local
upstream of every worker keeps this promise. -/
theorem distributors_keep_promise [DecidableEq K] [MaybeTime T]
    (merges : MergesMin T) {job : Job K V T VO S L}
    {workers : IndexSet WorkerId} {start system : System K V T VO S L}
    (unheard : Unheard workers start)
    (run : Reaches (fun state event => state.step job event) (Stays workers)
      start system)
    (promises : ∀ worker ∈ workers, Promise (system.workers worker).taken) :
    ∀ worker ∈ workers, Promise (system.workers worker).handed := by
  have timely : (∀ worker ∈ workers, Promise (system.workers worker).taken) →
      Timely job.partitioner workers system := by
    refine run.invariant (fun state =>
      (∀ worker ∈ workers, Promise (state.workers worker).taken) →
        Timely job.partitioner workers state)
      (fun _ => unheard.timely job.partitioner) ?_
    intro state event next _ timely stays stepped promises
    refine Timely.step merges (timely fun worker member => ?_) stays stepped
      promises
    obtain ⟨more, taken⟩ := System.taken_step stepped worker
    exact (taken ▸ promises worker member).earlier
  exact (timely promises).promise

/-- Worker 0 learns from worker 1 that time 3 is over and announces it; the
record of worker 1 which was under way before is later. -/
def timeTrace : List (Event Nat Unit Nat) :=
  [.receiveLocal 0 (.epoch 5), .receiveLocal 1 (.data ⟨0, (), 2⟩),
    .receiveLocal 1 (.epoch 3), .receiveLocal 1 (.data ⟨0, (), 4⟩),
    .receiveRemote 0 1, .receiveRemote 0 1, .receiveRemote 0 1,
    .receiveRemote 1 0]

@[irreducible] def timeState : System Nat Unit Nat Nat Nat Unit :=
  replay (fun state event => System.step countJob state event)
    (System.initial countJob ⟨[0, 1], by decide⟩) timeTrace

theorem timeState_keeps_promise :
    (timeState.workers 0).handed =
      [.data ⟨0, (), 2⟩, .epoch 3, .data ⟨0, (), 4⟩] ∧
    Promise (timeState.workers 0).handed := by
  have run : Reaches (fun state event => System.step countJob state event)
      (Stays ⟨[0, 1], by decide⟩)
      (System.initial countJob ⟨[0, 1], by decide⟩) timeState := by
    unfold timeState
    exact Follows.reaches timeTrace .refl (by decide +kernel)
  have first : (timeState.workers 0).taken = [.epoch 5] := by decide +kernel
  have second : (timeState.workers 1).taken =
      [.data ⟨0, (), 2⟩, .epoch 3, .data ⟨0, (), 4⟩] := by decide +kernel
  refine ⟨by decide +kernel, distributors_keep_promise mergesMin_nat
    (Unheard.initial countJob ⟨[0, 1], by decide⟩) run ?_ 0 (by decide)⟩
  intro worker member
  have either : worker = 0 ∨ worker = 1 := by
    simpa [IndexSet.mem_def] using member
  rcases either with rfl | rfl
  · simp [first, Promise]
  · simp [second, Promise]

end

end Keyed

end Malstrom
