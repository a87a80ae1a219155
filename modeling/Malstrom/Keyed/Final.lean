import Malstrom.Channels.Final
import Malstrom.Keyed.Epochs
import Malstrom.Keyed.Run

namespace Malstrom.Keyed

open Data Channels MaybeTime

variable {K V T : Type}

namespace NetworkMessage

def isEpoch [DecidableEq T] (time : T) : NetworkMessage K V T → Bool
  | .epoch reached => decide (reached = time)
  | _ => false

def isData (message : NetworkMessage K V T) : Bool := message.record?.isSome

theorem isEpoch_iff [DecidableEq T] {time : T}
    {message : NetworkMessage K V T} :
    message.isEpoch time = true ↔ message = .epoch time := by
  cases message <;> simp [isEpoch]

end NetworkMessage

/-! A distributor which has announced the last time has handed down everything
other workers have sent to it. -/

abbrev EndsOnLink [DecidableEq T] (last : T)
    (messages : List (NetworkMessage K V T)) : Prop :=
  Sealed (NetworkMessage.isEpoch last) NetworkMessage.isData messages

/-- The records of all remotes in the order in which they were read. -/
def recordsOf (messages : List (WorkerId × NetworkMessage K V T)) :
    List (DataMessage K V T) :=
  messages.filterMap fun addressed => addressed.2.record?

theorem recordsOf_silent {messages : List (WorkerId × NetworkMessage K V T)}
    (silent : ∀ addressed ∈ messages, addressed.2.isData = false) :
    recordsOf messages = [] := by
  refine List.filterMap_eq_nil_iff.mpr fun addressed member => ?_
  simpa [NetworkMessage.isData] using silent addressed member

structure Ledger (K V T : Type) where
  distributor : Distributor K V T
  taken : List (Message K V T)
  /-- What was read from the remotes. -/
  heard : List (WorkerId × NetworkMessage K V T)
  handed : List (Message K V T)
  sent : List (WorkerId × NetworkMessage K V T)

/-- The ledger after a handler, or after several of them. -/
def Ledger.after (ledger : Ledger K V T)
    (incoming : List (WorkerId × NetworkMessage K V T))
    (received : List (Message K V T)) (distributor : Distributor K V T)
    (effects : Effects K V T) : Ledger K V T :=
  { distributor := distributor
    taken := ledger.taken ++ received
    heard := ledger.heard ++ incoming
    handed := ledger.handed ++ effects.output
    sent := ledger.sent ++ effects.network }

theorem Ledger.after_after (ledger : Ledger K V T)
    (incoming later : List (WorkerId × NetworkMessage K V T))
    (received more : List (Message K V T))
    (distributor next : Distributor K V T) (effects following : Effects K V T) :
    (ledger.after incoming received distributor effects).after later more next
        following =
      ledger.after (incoming ++ later) (received ++ more) next
        (effects.append following) := by
  simp [after, Effects.append]

/-- What holds of a distributor while no rescale is under way: it announces the
last time only behind everyone else's. -/
structure Ledger.Final [DecidableEq T] (last : T) (owner : K → WorkerId)
    (thisWorker : WorkerId) (workers : IndexSet WorkerId) (version : Version)
    (ledger : Ledger K V T) : Prop where
  running : ledger.distributor.router = .normal ⟨workers, version⟩
  clients : ∀ remote, remote ∈ ledger.distributor.remotes ↔
    remote ∈ workers ∧ remote ≠ thisWorker
  own : ∀ epoch, ledger.distributor.frontiers.own = some epoch →
    .epoch epoch ∈ ledger.taken
  remote : ∀ remote epoch,
    ledger.distributor.frontiers.remote remote = some epoch →
      (remote, .epoch epoch) ∈ ledger.heard
  final : .epoch last ∈ ledger.handed → .epoch last ∈ ledger.taken ∧
    ∀ remote ∈ workers, remote ≠ thisWorker →
      (remote, .epoch last) ∈ ledger.heard
  told : ∀ remote, (remote, .epoch last) ∈ ledger.sent →
    .epoch last ∈ ledger.taken
  owned : ∀ remote record, (remote, .data record) ∈ ledger.sent →
    owner record.content.key = remote
  handedDown : (recordsOf ledger.heard).Sublist
    (ledger.handed.filterMap Message.data?)
  ends : Ends last ledger.handed
  endsOnLink : ∀ remote,
    EndsOnLink last (Links.addressedTo remote ledger.sent)

section

variable [DecidableEq T] {last : T} {owner : K → WorkerId}
  {thisWorker : WorkerId} {workers : IndexSet WorkerId} {version : Version}
  {ledger : Ledger K V T} {distributor : Distributor K V T}
  {incoming : List (WorkerId × NetworkMessage K V T)}
  {received : List (Message K V T)} {effects : Effects K V T}

def Ledger.fresh (thisWorker : WorkerId) (workers : IndexSet WorkerId) :
    Ledger K V T :=
  { distributor := Distributor.fresh thisWorker workers
    taken := []
    heard := []
    handed := []
    sent := [] }

theorem Ledger.Final.fresh : (Ledger.fresh thisWorker workers :
    Ledger K V T).Final last owner thisWorker workers 0 := by
  have unknown (remote : WorkerId) :
      (Distributor.fresh thisWorker workers :
        Distributor K V T).frontiers.remote remote = none := by
    simp only [Distributor.frontiers, Remotes.frontier, Distributor.fresh,
      Remotes.get?_ofWorkers]
    split <;> rfl
  constructor
  case running => rfl
  case clients => simp [Ledger.fresh, Distributor.fresh]
  case own =>
    intro epoch isOwn
    cases isOwn
  case remote =>
    intro remote epoch known
    exact absurd (known.symm.trans (unknown remote)) (Option.some_ne_none epoch)
  all_goals simp [Ledger.fresh, recordsOf, Sealed.nil]

/-- The effects of a handler, each behind what came before it. -/
theorem Ledger.Final.next
    (final : ledger.Final last owner thisWorker workers version)
    (running : distributor.router = .normal ⟨workers, version⟩)
    (clients : ∀ remote, remote ∈ distributor.remotes ↔
      remote ∈ ledger.distributor.remotes)
    (own : ∀ epoch, distributor.frontiers.own = some epoch →
      ledger.distributor.frontiers.own = some epoch ∨ .epoch epoch ∈ received)
    (heard : ∀ remote epoch,
      distributor.frontiers.remote remote = some epoch →
        ledger.distributor.frontiers.remote remote = some epoch ∨
          (remote, .epoch epoch) ∈ incoming)
    (announced : .epoch last ∈ effects.output →
      distributor.frontiers.own = some last ∧
        ∀ remote ∈ distributor.remotes,
          distributor.frontiers.remote remote = some last)
    (told : ∀ remote, (remote, .epoch last) ∈ effects.network →
      .epoch last ∈ received)
    (owned : ∀ remote record, (remote, .data record) ∈ effects.network →
      owner record.content.key = remote)
    (handedDown : (recordsOf incoming).Sublist
      (effects.output.filterMap Message.data?))
    (ends : Ends last (ledger.handed ++ effects.output))
    (endsOnLink : ∀ remote, EndsOnLink last
      (Links.addressedTo remote ledger.sent ++
        Links.addressedTo remote effects.network)) :
    (ledger.after incoming received distributor effects).Final last owner
      thisWorker workers version := by
  have owns (epoch : T) (isOwn : distributor.frontiers.own = some epoch) :
      .epoch epoch ∈ ledger.taken ++ received := by
    rcases own epoch isOwn with before | now
    · exact List.mem_append_left _ (final.own epoch before)
    · exact List.mem_append_right _ now
  have hears (remote : WorkerId) (epoch : T)
      (known : distributor.frontiers.remote remote = some epoch) :
      (remote, .epoch epoch) ∈ ledger.heard ++ incoming := by
    rcases heard remote epoch known with before | now
    · exact List.mem_append_left _ (final.remote remote epoch before)
    · exact List.mem_append_right _ now
  refine ⟨running, fun remote => (clients remote).trans (final.clients remote),
    owns, hears, fun member => ?_, fun remote member => ?_,
    fun remote record member => ?_, ?_, ends, fun remote => ?_⟩
  · rcases List.mem_append.mp member with before | now
    · obtain ⟨taken, others⟩ := final.final before
      exact ⟨List.mem_append_left _ taken, fun remote inside other =>
        List.mem_append_left _ (others remote inside other)⟩
    · obtain ⟨isOwn, others⟩ := announced now
      refine ⟨owns last isOwn, fun remote inside other => ?_⟩
      have client : remote ∈ distributor.remotes :=
        (clients remote).mpr ((final.clients remote).mpr ⟨inside, other⟩)
      exact hears remote last (others remote client)
  · rcases List.mem_append.mp member with before | now
    · exact List.mem_append_left _ (final.told remote before)
    · exact List.mem_append_right _ (told remote now)
  · rcases List.mem_append.mp member with before | now
    · exact final.owned remote record before
    · exact owned remote record now
  · simp only [after, recordsOf, List.filterMap_append]
    exact final.handedDown.append handedDown
  · simp only [after, Links.addressedTo_append]
    exact endsOnLink remote

omit [DecidableEq T] in
theorem isData_untimed {message : NetworkMessage K V T}
    (untimed : message.isTimed = false) : message.isData = false := by
  cases message <;> first | rfl | cases untimed

omit [DecidableEq T] in
theorem addressedTo_untimed {remote : WorkerId}
    {messages : List (WorkerId × NetworkMessage K V T)}
    (untimed : ∀ addressed ∈ messages, addressed.2.isTimed = false) :
    ∀ message ∈ Links.addressedTo remote messages, message.isData = false :=
  fun _ member => isData_untimed (untimed _ (Links.mem_addressedTo.mp member))

theorem Ledger.Final.silent
    (final : ledger.Final last owner thisWorker workers version)
    (router : distributor.router = ledger.distributor.router)
    (clients : ∀ remote, remote ∈ distributor.remotes ↔
      remote ∈ ledger.distributor.remotes)
    (frontiers : distributor.frontiers = ledger.distributor.frontiers)
    (silentIncoming : ∀ arrived ∈ incoming, arrived.2.isTimed = false)
    (silentOutput : ∀ message ∈ effects.output, message.isTimed = false)
    (silentNetwork : ∀ addressed ∈ effects.network,
      addressed.2.isTimed = false) :
    (ledger.after incoming received distributor effects).Final last owner
      thisWorker workers version := by
  have untimed {remote : WorkerId} {message : NetworkMessage K V T}
      (member : (remote, message) ∈ effects.network) :
      message.isTimed = false := silentNetwork _ member
  refine final.next (router.trans final.running) clients
    (fun epoch known => .inl (frontiers ▸ known))
    (fun remote epoch known => .inl (frontiers ▸ known)) (fun member => ?_)
    (fun remote member => ?_) (fun remote record member => ?_) ?_
    (final.ends.pushAll fun message member => ?_)
    fun remote => (final.endsOnLink remote).pushAll
      (addressedTo_untimed silentNetwork)
  · cases silentOutput _ member
  · cases untimed member
  · cases untimed member
  · rw [recordsOf_silent fun addressed member =>
      isData_untimed (silentIncoming addressed member)]
    exact List.nil_sublist _
  · have isUntimed := silentOutput message member
    cases message <;> first | rfl | cases isUntimed

end

/-! ### What a call reads -/

def Distributor.reads (distributor : Distributor K V T) (mail : Mailbox K V T)
    (remote : WorkerId) : List (NetworkMessage K V T) :=
  if distributor.canReceive remote then (mail remote).head?.toList else []

theorem addressedTo_heads (mail : Mailbox K V T) (remote : WorkerId)
    {remotes : List WorkerId} (nodup : remotes.Nodup) :
    Links.addressedTo remote (remotes.filterMap fun other =>
        (mail other).head?.map fun message => (other, message)) =
      if remote ∈ remotes then (mail remote).head?.toList else [] := by
  induction remotes with
  | nil => rfl
  | cons first rest ih =>
      obtain ⟨fresh, nodup⟩ := List.nodup_cons.mp nodup
      rw [List.filterMap_cons]
      cases isHead : (mail first).head? with
      | none =>
          simp only [Option.map_none, ih nodup, List.mem_cons]
          by_cases same : remote = first
          · simp [same, fresh, isHead]
          · simp [same]
      | some message =>
          simp only [Option.map_some, Links.addressedTo_cons, ih nodup,
            List.mem_cons]
          by_cases same : remote = first
          · simp [same, fresh, isHead]
          · simp [same, Ne.symm same]

theorem addressedTo_remoteMessages (distributor : Distributor K V T)
    (mail : Mailbox K V T) (remote : WorkerId) :
    Links.addressedTo remote (distributor.remoteMessages mail) =
      distributor.reads mail remote := by
  have client : remote ∈ distributor.remotes.keys.filter
      distributor.canReceive ↔ distributor.canReceive remote = true := by
    rw [List.mem_filter]
    exact ⟨And.right, fun ready => ⟨System.canReceive_client ready, ready⟩⟩
  have nodup : (distributor.remotes.keys.filter
      distributor.canReceive).Nodup := distributor.remotes.nodup.filter _
  rw [Distributor.remoteMessages, addressedTo_heads mail remote nodup]
  simp only [client, Distributor.reads]

theorem client_of_mem_remoteMessages {distributor : Distributor K V T}
    {mail : Mailbox K V T} {addressed : WorkerId × NetworkMessage K V T}
    (member : addressed ∈ distributor.remoteMessages mail) :
    addressed.1 ∈ distributor.remotes := by
  obtain ⟨remote, ready, isHead⟩ := List.mem_filterMap.mp member
  obtain ⟨message, -, rfl⟩ := Option.map_eq_some_iff.mp isHead
  exact (List.mem_filter.mp ready).1

theorem reads_append_leftMail (distributor : Distributor K V T)
    (mail : Mailbox K V T) (remote : WorkerId) :
    distributor.reads mail remote ++ distributor.leftMail mail remote =
      mail remote := by
  unfold Distributor.reads Distributor.leftMail
  split
  · cases mail remote <;> rfl
  · rfl

/-! ### The handlers -/

section

variable [MaybeTime T] {last : T}

/-- The last time is announced where it is everyone's. -/
theorem Distributor.handleEpoch_last (merges : MergesLast last)
    (distributor : Distributor K V T) :
    distributor.handleEpoch.network = [] ∧
      (∀ message ∈ distributor.handleEpoch.output, message.isData = false) ∧
      (.epoch last ∈ distributor.handleEpoch.output →
        distributor.frontiers.own = some last ∧
          ∀ remote ∈ distributor.remotes,
            distributor.frontiers.remote remote = some last) := by
  unfold handleEpoch
  cases merged : mergeTimestamps (distributor.remotes.values.map
      RemoteState.frontier ++ [distributor.localFrontier]) with
  | none => simp [merged]
  | some epoch =>
      simp only [merged]
      refine ⟨trivial, fun message member => ?_, fun member => ?_⟩
      · rw [List.mem_singleton.mp member]
        rfl
      · obtain rfl := Message.epoch.inj (List.mem_singleton.mp member)
        have all := mergeTimestamps_eq_last merges merged
        exact ⟨(all _ ((distributor.mem_timestamps _).mpr (.inr rfl))),
          fun remote client => all _ ((distributor.mem_timestamps _).mpr
            (.inl ⟨remote, client, rfl⟩))⟩

variable [DecidableEq K] [DecidableEq T] {partitioner : WorkerPartitioner K}
  {thisWorker : WorkerId} {workers : IndexSet WorkerId} {version : Version}
  {ledger : Ledger K V T} {result : Distributor K V T × Effects K V T}

omit [MaybeTime T] [DecidableEq K] in
theorem unannounced (absent : .epoch last ∉ ledger.handed) :
    ∀ message ∈ ledger.handed, message.isEpoch last = false := by
  intro message member
  cases isLast : message.isEpoch last with
  | false => rfl
  | true => exact absurd (Message.isEpoch_iff.mp isLast ▸ member) absent

omit [DecidableEq K] in
theorem Ledger.Final.announce {owner : K → WorkerId}
    (merges : MergesLast last)
    (final : ledger.Final last owner thisWorker workers version)
    (updated : Distributor K V T)
    (network : List (WorkerId × NetworkMessage K V T))
    {incoming : List (WorkerId × NetworkMessage K V T)}
    {received : List (Message K V T)}
    (router : updated.router = ledger.distributor.router)
    (clients : ∀ remote, remote ∈ updated.remotes ↔
      remote ∈ ledger.distributor.remotes)
    (own : ∀ epoch, updated.frontiers.own = some epoch →
      ledger.distributor.frontiers.own = some epoch ∨ .epoch epoch ∈ received)
    (heard : ∀ remote epoch, updated.frontiers.remote remote = some epoch →
      ledger.distributor.frontiers.remote remote = some epoch ∨
        (remote, .epoch epoch) ∈ incoming)
    (noRecord : ∀ arrived ∈ incoming, arrived.2.isData = false)
    (tells : ∀ addressed ∈ network, addressed.2.isData = false ∧
      (addressed.2 = .epoch last → .epoch last ∈ received)) :
    (ledger.after incoming received updated
      (Effects.append { network := network } updated.handleEpoch)).Final last
        owner thisWorker workers version := by
  obtain ⟨silent, output, announced⟩ := updated.handleEpoch_last merges
  have sent : (Effects.append { network := network }
      updated.handleEpoch).network = network := by
    simp [Effects.append, silent]
  refine final.next (router.trans final.running) clients own heard announced
    (fun remote member => ?_) (fun remote record member => ?_) ?_
    (final.ends.pushAll output)
    fun remote => (final.endsOnLink remote).pushAll fun message member => ?_
  · rw [sent] at member
    exact (tells _ member).2 rfl
  · rw [sent] at member
    cases (tells _ member).1
  · rw [recordsOf_silent noRecord]
    exact List.nil_sublist _
  · rw [sent] at member
    exact (tells _ (Links.mem_addressedTo.mp member)).1

theorem Ledger.Final.hear (merges : MergesLast last)
    (final : ledger.Final last (fun key => partitioner key workers) thisWorker
      workers version) {remote : WorkerId} {message : NetworkMessage K V T}
    (client : remote ∈ ledger.distributor.remotes)
    (owned : ∀ record, message = .data record →
      partitioner record.content.key workers = thisWorker)
    (ends : EndsOnLink last
      (Links.addressedTo remote ledger.heard ++ [message]))
    (handled : ledger.distributor.receiveRemote remote message partitioner
      thisWorker = .ok result) :
    (ledger.after [(remote, message)] [] result.1 result.2).Final last
      (fun key => partitioner key workers) thisWorker workers version := by
  have silent (change : RemoteState T → RemoteState T)
      (keeps : ∀ state, (change state).frontier = state.frontier)
      (effects : Effects K V T) (untimed : message.isTimed = false)
      (output : ∀ handed ∈ effects.output, handed.isTimed = false)
      (network : ∀ addressed ∈ effects.network,
        addressed.2.isTimed = false) :
      (ledger.after [(remote, message)] []
        { ledger.distributor with
          remotes := ledger.distributor.remotes.modify remote change }
        effects).Final last (fun key => partitioner key workers) thisWorker
          workers version := by
    refine final.silent rfl (fun _ => IndexMap.mem_modify) ?_ ?_ output network
    · simp only [Distributor.frontiers,
        Remotes.frontier_modify _ remote change keeps]
    · simpa using untimed
  cases message with
  | data record =>
      obtain ⟨same, ⟨effects, -⟩ | ⟨-, away, -⟩⟩ :=
        handleDataMessage_running final.running handled
      · rw [same, effects]
        have unsent : .epoch last ∉ ledger.handed := fun announced => by
          obtain ⟨inside, other⟩ := (final.clients remote).mp client
          have before := ends.unfinished rfl _ (Links.mem_addressedTo.mpr
            ((final.final announced).2 remote inside other))
          simp [NetworkMessage.isEpoch] at before
        exact final.next final.running (fun _ => Iff.rfl)
          (fun _ => .inl) (fun _ _ => .inl) (by simp) (by simp) (by simp)
          (.refl _) (final.ends.push fun _ => unannounced unsent)
          fun other => by simpa using final.endsOnLink other
      · exact absurd (owned record rfl) away
  | epoch epoch =>
      simp only [Distributor.receiveRemote, Except.ok.injEq] at handled
      subst handled
      have reported := Remotes.frontier_report ledger.distributor.remotes client
        epoch
      have known (other : WorkerId) (time : T)
          (isTime : Function.update ledger.distributor.remotes.frontier remote
            (some epoch) other = some time) :
          ledger.distributor.frontiers.remote other = some time ∨
            (other, .epoch time) ∈
              [(remote, (.epoch epoch : NetworkMessage K V T))] := by
        rw [Function.update_apply] at isTime
        split at isTime
        next same =>
          obtain rfl := Option.some.inj isTime
          exact .inr (by simp [same])
        next => exact .inl isTime
      rw [← reported] at known
      exact final.announce merges { ledger.distributor with
          remotes := ledger.distributor.remotes.modify remote fun state =>
            { state with frontier := some epoch } } []
        rfl (fun _ => IndexMap.mem_modify) (fun _ => .inl) known
        (by simp [NetworkMessage.isData, NetworkMessage.record?,
          NetworkMessage.data?]) (by simp)
  | barrierMarker =>
      simp only [Distributor.receiveRemote, Except.ok.injEq] at handled
      subst handled
      exact silent (fun state => { state with isBarred := true })
        (fun _ => rfl) {} rfl (by simp) (by simp)
  | suspendMarker =>
      simp only [Distributor.receiveRemote, Except.ok.injEq] at handled
      subst handled
      exact silent (fun state => { state with sentSuspend := true })
        (fun _ => rfl) {} rfl (by simp) (by simp)
  | acquire acquire =>
      simp only [Distributor.receiveRemote, Except.ok.injEq] at handled
      subst handled
      exact final.silent rfl (fun _ => Iff.rfl) rfl
        (by simp [NetworkMessage.isTimed])
        (by simp [Message.isTimed]) (by simp)
  | upgrade version =>
      simp only [Distributor.receiveRemote, Except.ok.injEq] at handled
      subst handled
      exact silent (fun state => { state with lastVersion := some version })
        (fun _ => rfl) { network := [(remote, .ackUpgrade version)] } rfl
        (by simp) (by simp [NetworkMessage.isTimed])
  | ackUpgrade version =>
      simp only [Distributor.receiveRemote, Except.ok.injEq] at handled
      subst handled
      exact silent (fun state => { state with lastAckVersion := some version })
        (fun _ => rfl) {} rfl (by simp) (by simp)

theorem Ledger.Final.take (merges : MergesLast last)
    (final : ledger.Final last (fun key => partitioner key workers) thisWorker
      workers version) {message : Message K V T}
    (unscaled : message.rescale? = none)
    (ends : Ends last (ledger.taken ++ [message]))
    (handled : ledger.distributor.receiveLocal message partitioner thisWorker =
      .ok result) :
    (ledger.after [] [message] result.1 result.2).Final last
      (fun key => partitioner key workers) thisWorker workers version := by
  have silent (distributor : Distributor K V T)
      (network : List (WorkerId × NetworkMessage K V T))
      (router : distributor.router = ledger.distributor.router)
      (remotes : distributor.remotes = ledger.distributor.remotes)
      (frontiers : distributor.frontiers = ledger.distributor.frontiers)
      (untimed : ∀ addressed ∈ network, addressed.2.isTimed = false) :
      (ledger.after [] [message] distributor { network := network }).Final last
        (fun key => partitioner key workers) thisWorker workers version :=
    final.silent router (fun _ => by rw [remotes]) frontiers (by simp)
      (by simp) untimed
  cases message with
  | data record =>
      have untaken := ends.unfinished rfl
      have absent : .epoch last ∉ ledger.taken := fun taken => by
        have before := untaken _ taken
        simp [Message.isEpoch] at before
      obtain ⟨same, ⟨effects, here⟩ | ⟨effects, away, client⟩⟩ :=
        handleDataMessage_running final.running handled
      · rw [same, effects]
        have unsent : .epoch last ∉ ledger.handed := fun announced =>
          absent (final.final announced).1
        exact final.next final.running (fun _ => Iff.rfl)
          (fun _ => .inl) (fun _ _ => .inl) (by simp) (by simp) (by simp)
          (List.nil_sublist _) (final.ends.push fun _ => unannounced unsent)
          fun other => by simpa using final.endsOnLink other
      · rw [same, effects]
        refine final.next final.running (fun _ => Iff.rfl)
          (fun _ => .inl) (fun _ _ => .inl) (by simp) (by simp) (by simp)
          (List.nil_sublist _) (by simpa using final.ends) fun other => ?_
        rw [Links.addressedTo_cons, Links.addressedTo_nil]
        split
        next isTarget =>
          refine (final.endsOnLink other).push fun _ earlier member => ?_
          cases isLast : earlier.isEpoch last with
          | false => rfl
          | true =>
              obtain rfl := NetworkMessage.isEpoch_iff.mp isLast
              exact absurd (final.told other (Links.mem_addressedTo.mp member))
                absent
        next => simpa using final.endsOnLink other
  | epoch epoch =>
      simp only [Distributor.receiveLocal, Except.ok.injEq] at handled
      subst handled
      refine final.announce merges { ledger.distributor with
          localFrontier := some epoch }
        (broadcast ledger.distributor.remotes (.epoch epoch)) rfl
        (fun _ => Iff.rfl) (fun time isOwn => ?_) (fun _ _ => .inl) (by simp)
        fun addressed member => ?_
      · obtain rfl := Option.some.inj isOwn
        exact .inr (.head _)
      · obtain ⟨remote, -, rfl⟩ := List.mem_map.mp member
        refine ⟨rfl, fun isLast => ?_⟩
        obtain rfl := NetworkMessage.epoch.inj isLast
        exact .head _
  | absBarrier =>
      simp only [Distributor.receiveLocal, Except.ok.injEq] at handled
      subst handled
      exact silent _ _ rfl rfl rfl (by simp [broadcast, NetworkMessage.isTimed])
  | rescale trigger => simp [Message.rescale?] at unscaled
  | suspendMarker =>
      simp only [Distributor.receiveLocal, Except.ok.injEq] at handled
      subst handled
      exact silent _ _ rfl rfl rfl (by simp [broadcast, NetworkMessage.isTimed])
  | interrogate | collect | acquire =>
      simp only [Distributor.receiveLocal, Except.ok.injEq] at handled
      subst handled
      exact silent _ _ rfl rfl rfl (by simp)

/-! ### A call -/

theorem Ledger.Final.receiveRemotes (merges : MergesLast last)
    (final : ledger.Final last (fun key => partitioner key workers) thisWorker
      workers version) {messages : List (WorkerId × NetworkMessage K V T)}
    (clients : ∀ addressed ∈ messages,
      addressed.1 ∈ ledger.distributor.remotes)
    (owned : ∀ remote record, (remote, .data record) ∈ messages →
      partitioner record.content.key workers = thisWorker)
    (ends : ∀ remote ∈ ledger.distributor.remotes, EndsOnLink last
      (Links.addressedTo remote ledger.heard ++
        Links.addressedTo remote messages))
    (handled : ledger.distributor.receiveRemotes partitioner thisWorker
      messages = .ok result) :
    (ledger.after messages [] result.1 result.2).Final last
      (fun key => partitioner key workers) thisWorker workers version := by
  induction messages generalizing ledger result with
  | nil =>
      obtain rfl := Except.ok.inj handled
      simpa [Ledger.after] using final
  | cons addressed rest ih =>
      obtain ⟨remote, message⟩ := addressed
      simp only [Distributor.receiveRemotes] at handled
      split at handled
      next => cases handled
      next next' effects received =>
        split at handled
        next => cases handled
        next last' later following =>
          obtain rfl := Except.ok.inj handled
          have first := ends remote (clients _ (.head _))
          rw [Links.addressedTo_cons, if_pos rfl, ← List.singleton_append,
            ← List.append_assoc] at first
          have heard := final.hear merges (clients _ (.head _))
            (fun record isData => owned remote record (by simp [isData]))
            first.earlier received
          have same (other : WorkerId) : other ∈ next'.remotes ↔
              other ∈ ledger.distributor.remotes :=
            (heard.clients other).trans (final.clients other).symm
          have all := ih heard
            (fun other member => (same _).mpr (clients other (.tail _ member)))
            (fun other record member => owned other record (.tail _ member))
            (fun other client => ?_) following
          · rw [Ledger.after_after] at all
            exact all
          · have both := ends other ((same other).mp client)
            rw [← List.singleton_append, Links.addressedTo_append,
              ← List.append_assoc, ← Links.addressedTo_append] at both
            exact both

omit [MaybeTime T] [DecidableEq K] in
theorem Ledger.Final.tryEmitBarrier {owner : K → WorkerId}
    (final : ledger.Final last owner thisWorker workers version) :
    (ledger.after [] [] ledger.distributor.tryEmitBarrier.1
      ledger.distributor.tryEmitBarrier.2).Final last owner thisWorker workers
        version := by
  unfold Distributor.tryEmitBarrier
  split
  · refine final.silent rfl (fun _ => IndexMap.mem_mapValues) ?_ (by simp)
      (by simp [Message.isTimed]) (by simp)
    simp only [Distributor.frontiers,
      Remotes.frontier_mapValues _ (fun state : RemoteState T =>
        { state with isBarred := false }) fun _ => rfl]
  · exact final.silent rfl (fun _ => Iff.rfl) rfl (by simp) (by simp) (by simp)

omit [MaybeTime T] [DecidableEq K] in
theorem Ledger.Final.tryEmitShutdown {owner : K → WorkerId}
    (final : ledger.Final last owner thisWorker workers version) :
    (ledger.after [] [] ledger.distributor.tryEmitShutdown.1
      ledger.distributor.tryEmitShutdown.2).Final last owner thisWorker workers
        version := by
  unfold Distributor.tryEmitShutdown
  split
  · exact final.silent rfl (fun _ => Iff.rfl) rfl (by simp)
      (by simp [Message.isTimed]) (by simp)
  · exact final.silent rfl (fun _ => Iff.rfl) rfl (by simp) (by simp) (by simp)

omit [MaybeTime T] [DecidableEq K] in
theorem Ledger.Final.lifecycle {owner : K → WorkerId} {clones : Nat}
    (final : ledger.Final last owner thisWorker workers version)
    (handled : ledger.distributor.lifecycle partitioner clones = .ok result) :
    (ledger.after [] [] result.1 result.2).Final last owner thisWorker workers
      version := by
  simp only [Distributor.lifecycle, final.running, MessageRouter.lifecycle,
    Except.ok.injEq] at handled
  subst handled
  exact final.silent final.running.symm (fun _ => Iff.rfl) rfl (by simp)
    (by simp) (by simp)

variable [LT T] [DecidableLT T]

theorem Ledger.Final.runLocal (merges : MergesLast last)
    (final : ledger.Final last (fun key => partitioner key workers) thisWorker
      workers version) {input next : Input K V T}
    {distributor : Distributor K V T} {taken : Option (Message K V T)}
    {effects : Effects K V T}
    (unscaled : ∀ message ∈ taken, message.rescale? = none)
    (ends : Ends last (ledger.taken ++ taken.toList))
    (ran : ledger.distributor.runLocal input partitioner thisWorker =
      .ok (distributor, next, taken, effects)) :
    (ledger.after [] taken.toList distributor effects).Final last
      (fun key => partitioner key workers) thisWorker workers version := by
  simp only [Distributor.runLocal] at ran
  split at ran
  next =>
    obtain ⟨rfl, -, rfl, rfl⟩ := by simpa using ran
    exact final.silent rfl (fun _ => Iff.rfl) rfl (by simp) (by simp) (by simp)
  next =>
    split at ran
    next => cases ran
    next =>
      obtain ⟨rfl, -, rfl, rfl⟩ := by simpa using ran
      exact final.silent rfl (fun _ => Iff.rfl) rfl (by simp) (by simp)
        (by simp)
    next message _ _ =>
      split at ran
      next => cases ran
      next received handled =>
        obtain ⟨rfl, -, rfl, rfl⟩ := by simpa using ran
        exact final.take merges (unscaled message rfl) ends handled

theorem Ledger.Final.run (merges : MergesLast last)
    (final : ledger.Final last (fun key => partitioner key workers) thisWorker
      workers version) {input : Input K V T} {mail : Mailbox K V T}
    {clones : Nat} {result : RunResult K V T}
    (owned : ∀ remote ∈ ledger.distributor.remotes, ∀ record,
      .data record ∈ mail remote →
        partitioner record.content.key workers = thisWorker)
    (endsOnLink : ∀ remote ∈ ledger.distributor.remotes,
      EndsOnLink last (Links.addressedTo remote ledger.heard ++ mail remote))
    (unscaled : ∀ message ∈ result.taken, message.rescale? = none)
    (ends : Ends last (ledger.taken ++ result.taken.toList))
    (ran : ledger.distributor.run input mail partitioner thisWorker clones =
      .ok result) :
    (ledger.after (ledger.distributor.remoteMessages mail) result.taken.toList
      result.distributor result.effects).Final last
        (fun key => partitioner key workers) thisWorker workers version := by
  have mailed {remote : WorkerId} {message : NetworkMessage K V T}
      (member : (remote, message) ∈ ledger.distributor.remoteMessages mail) :
      message ∈ mail remote := by
    have read := Links.mem_addressedTo.mpr member
    rw [addressedTo_remoteMessages] at read
    rw [← reads_append_leftMail ledger.distributor mail remote]
    exact List.mem_append_left _ read
  simp only [Distributor.run] at ran
  split at ran
  next => cases ran
  next heard fromRemotes hears =>
    have afterRemotes := final.receiveRemotes merges (fun addressed member => ?_)
      (fun remote record member => owned remote
        (client_of_mem_remoteMessages member) record (mailed member))
      (fun remote client => ?_) hears
    · split at ran
      next => cases ran
      next received next taken fromLocal takes =>
        split at ran
        next => cases ran
        next last' ending ends' =>
          obtain rfl := Except.ok.inj ran
          have afterLocal := afterRemotes.runLocal merges unscaled
            (by simpa [Ledger.after] using ends) takes
          have afterAll :=
            (afterLocal.tryEmitBarrier.tryEmitShutdown).lifecycle ends'
          simp only [Ledger.after_after, List.append_nil, List.nil_append]
            at afterAll
          exact afterAll
    · exact client_of_mem_remoteMessages member
    · have both := endsOnLink remote client
      rw [← reads_append_leftMail ledger.distributor mail remote,
        ← List.append_assoc] at both
      rw [addressedTo_remoteMessages]
      exact both.earlier

end

end Malstrom.Keyed
