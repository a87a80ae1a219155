import Mathlib.Data.List.Induction
import Malstrom.Keyed.Epochs
import Malstrom.Keyed.Partitioners

namespace Malstrom.Channels

variable {K V T : Type}

theorem lastEpoch_append_untimed {messages more : List (Message K V T)}
    (noEpoch : ∀ message ∈ more, message.epoch? = none) :
    lastEpoch (messages ++ more) = lastEpoch messages := by
  have none : more.filterMap Message.epoch? = [] := by
    simpa [List.filterMap_eq_nil_iff] using noEpoch
  simp [lastEpoch, none]

theorem Rising.append_untimed [LE T] {messages more : List (Message K V T)}
    (noEpoch : ∀ message ∈ more, message.epoch? = none) :
    Rising (messages ++ more) ↔ Rising messages := by
  refine ⟨Rising.earlier, fun rising => ?_⟩
  refine List.pairwise_append.mpr ⟨rising, ?_, ?_⟩
  · refine List.pairwise_of_forall_mem_list fun earlier _ later member => ?_
    rintro epoch reached rfl rfl
    simpa [Message.epoch?] using noEpoch _ member
  · rintro earlier _ later member epoch reached rfl rfl
    simpa [Message.epoch?] using noEpoch _ member

theorem Rising.le_last [Preorder T] {messages : List (Message K V T)}
    (rising : Rising messages) {epoch last : T}
    (member : .epoch epoch ∈ messages)
    (isLast : lastEpoch messages = some last) : epoch ≤ last := by
  induction messages using List.reverseRecOn with
  | nil => simp at member
  | append_singleton earlier message ih =>
      cases isEpoch : message.epoch? with
      | none =>
          rw [lastEpoch_append_other earlier isEpoch] at isLast
          refine ih rising.earlier ?_ isLast
          refine (List.mem_append.mp member).resolve_right fun same => ?_
          obtain rfl := List.mem_singleton.mp same
          simp [Message.epoch?] at isEpoch
      | some reached =>
          obtain rfl : message = .epoch reached := by
            cases message <;> simp_all [Message.epoch?]
          obtain rfl : reached = last := by
            simpa [lastEpoch_append_epoch] using isLast
          cases List.mem_append.mp member with
          | inl before =>
              exact (List.pairwise_append.mp rising).2.2 _ before _
                (List.mem_singleton_self _) epoch reached rfl rfl
          | inr same =>
              obtain rfl : epoch = reached := by simpa using same
              exact le_refl epoch

theorem rising_announce [Preorder T] {messages : List (Message K V T)}
    (rising : Rising messages) (epoch : T) :
    Rising (messages ++ [.epoch epoch]) ↔
      ∀ last, lastEpoch messages = some last → last ≤ epoch := by
  constructor
  · intro announced last isLast
    exact announced.follows isLast
  · intro atLeast
    refine List.pairwise_append.mpr ⟨rising, List.pairwise_singleton _ _, ?_⟩
    rintro earlier member later isLater reached announced rfl rfl
    obtain rfl : announced = epoch := by simpa using isLater
    cases isLast : lastEpoch messages with
    | none =>
        have : (.epoch reached : Message K V T) ∈ messages := member
        have none : messages.filterMap Message.epoch? = [] := by
          simpa [lastEpoch] using isLast
        have := List.filterMap_eq_nil_iff.mp none _ member
        simp [Message.epoch?] at this
    | some last => exact (rising.le_last member isLast).trans (atLeast last isLast)

end Malstrom.Channels

namespace Malstrom.Keyed

open Data Channels MaybeTime Operators

variable {K V T S : Type}

def NetworkMessage.epoch? : NetworkMessage K V T → Option T
  | .epoch time => some time
  | _ => none

/-! The epochs of one distributor, whatever reaches it and whichever workers
join and leave. -/

structure Announcer (K V T : Type) where
  distributor : Distributor K V T
  /-- Everything handed downstream so far. -/
  handed : List (Message K V T)
  /-- The workers which have become remotes since an epoch was last handed
  downstream. -/
  joined : List WorkerId

inductive Announcer.Event (K V T S : Type) where
  | receiveRemote (remote : WorkerId) (message : NetworkMessage K V T)
  | receiveLocal (message : Message K V T)
  | tryEmitBarrier
  | tryEmitShutdown
  /-- As many clones of the router's cell are left elsewhere. -/
  | lifecycle (clones : Nat)
  | report (report : Report K S)

namespace Announcer

def start (distributor : Distributor K V T) : Announcer K V T :=
  { distributor := distributor, handed := [], joined := [] }

def install (announcer : Announcer K V T)
    (result : Distributor K V T × Effects K V T) : Announcer K V T :=
  { distributor := result.1
    handed := announcer.handed ++ result.2.output
    joined :=
      if result.2.output.any fun message => message.epoch?.isSome then []
      else result.1.remotes.keys.filter fun worker =>
        decide (worker ∈ announcer.joined ∨
          worker ∉ announcer.distributor.remotes) }

variable [DecidableEq K] [MaybeTime T]

def step (partitioner : WorkerPartitioner K) (thisWorker : WorkerId)
    (announcer : Announcer K V T) :
    Event K V T S → Except Panic (Announcer K V T)
  | .receiveRemote remote message =>
      match announcer.distributor.receiveRemote remote message partitioner
          thisWorker with
      | .ok result => .ok (announcer.install result)
      | .error panic => .error panic
  | .receiveLocal message =>
      match announcer.distributor.receiveLocal message partitioner
          thisWorker with
      | .ok result => .ok (announcer.install result)
      | .error panic => .error panic
  | .tryEmitBarrier =>
      .ok (announcer.install announcer.distributor.tryEmitBarrier)
  | .tryEmitShutdown =>
      .ok (announcer.install announcer.distributor.tryEmitShutdown)
  | .lifecycle clones =>
      match announcer.distributor.lifecycle partitioner clones with
      | .ok result => .ok (announcer.install result)
      | .error panic => .error panic
  | .report report =>
      .ok (announcer.install (announcer.distributor.takeReport report, {}))

omit [DecidableEq K] [MaybeTime T] in
def heard (announcer : Announcer K V T) : Event K V T S → Frontiers T
  | .receiveRemote remote (.epoch epoch) =>
      { announcer.distributor.frontiers with
        remote := Function.update announcer.distributor.frontiers.remote remote
          (some epoch) }
  | .receiveLocal (.epoch epoch) =>
      { announcer.distributor.frontiers with own := some epoch }
  | _ => announcer.distributor.frontiers

/-- Messages come from remotes which may be read, and none of the local
upstream while a barrier is pending; the epochs of each upstream do not
decrease. -/
def allowed [LE T] (announcer : Announcer K V T) : Event K V T S → Prop
  | .receiveRemote remote message =>
      announcer.distributor.canReceive remote = true ∧
      ∀ epoch ∈ message.epoch?,
        ∀ reached ∈ announcer.distributor.frontiers.remote remote,
          reached ≤ epoch
  | .receiveLocal message =>
      announcer.distributor.localBarrier = false ∧
      ∀ epoch ∈ message.epoch?,
        ∀ reached ∈ announcer.distributor.frontiers.own, reached ≤ epoch
  | _ => True

def Event.isEpoch : Event K V T S → Bool
  | .receiveRemote _ (.epoch _) | .receiveLocal (.epoch _) => true
  | _ => false

/-- An epoch which leaves no remote without a frontier finds every worker which
has joined since the last epoch handed downstream at or past that epoch. -/
def caughtUp [LE T] (announcer : Announcer K V T) (event : Event K V T S) :
    Prop :=
  event.isEpoch = true → ∀ last, lastEpoch announcer.handed = some last →
    (∃ other ∈ announcer.distributor.remotes,
      (announcer.heard event).remote other = none) ∨
    ∀ worker ∈ announcer.joined, ∀ reached,
      (announcer.heard event).remote worker = some reached → last ≤ reached

end Announcer

/-! A handler either takes an epoch, or leaves what is known of the upstreams'
time as it was and hands no epoch downstream. -/

structure Mute (before after : Distributor K V T)
    (output : List (Message K V T)) : Prop where
  noEpoch : ∀ message ∈ output, message.epoch? = none
  own : after.frontiers.own = before.frontiers.own
  remote : ∀ worker ∈ after.remotes, worker ∈ before.remotes →
    after.frontiers.remote worker = before.frontiers.remote worker

namespace Mute

variable {before after : Distributor K V T} {output : List (Message K V T)}

theorem same (noEpoch : ∀ message ∈ output, message.epoch? = none)
    (frontiers : after.frontiers = before.frontiers) :
    Mute before after output :=
  ⟨noEpoch, by rw [frontiers], fun _ _ _ => by rw [frontiers]⟩

theorem modify (before : Distributor K V T) (remote : WorkerId)
    (change : RemoteState T → RemoteState T)
    (keeps : ∀ state, (change state).frontier = state.frontier)
    (noEpoch : ∀ message ∈ output, message.epoch? = none) :
    Mute before { before with remotes := before.remotes.modify remote change }
      output := by
  refine .same noEpoch ?_
  simp only [Distributor.frontiers,
    Remotes.frontier_modify _ remote change keeps]

end Mute

theorem get?_addRemotes {remotes : Remotes T} (workers : List WorkerId)
    (thisWorker : WorkerId) {worker : WorkerId} (member : worker ∈ remotes) :
    (Distributor.addRemotes remotes workers thisWorker).get? worker =
      remotes.get? worker := by
  induction workers generalizing remotes with
  | nil => rfl
  | cons head tail ih =>
      have step : Distributor.addRemotes remotes (head :: tail) thisWorker =
          Distributor.addRemotes
            (if head ∉ remotes ∧ head ≠ thisWorker then remotes.insert head {}
              else remotes) tail thisWorker := rfl
      rw [step]
      split
      next added =>
        have different : worker ≠ head := by
          rintro rfl
          exact added.1 member
        rw [ih (IndexMap.mem_insert.mpr (.inl member)),
          IndexMap.get?_insert_of_ne _ _ different]
      next => exact ih member

theorem mute_of_handleDataMessage [DecidableEq K]
    {distributor : Distributor K V T} {message : DataMessage K V T}
    {messageVersion : Option Version} {partitioner : WorkerPartitioner K}
    {thisWorker sender : WorkerId} {result : Distributor K V T × Effects K V T}
    (handled : distributor.handleDataMessage message messageVersion partitioner
      thisWorker sender = .ok result) :
    Mute distributor result.1 result.2.output := by
  simp only [Distributor.handleDataMessage] at handled
  split at handled
  next =>
    obtain rfl := Except.ok.inj handled
    exact .same (by simp) rfl
  next kept target _ =>
    simp only [Distributor.sendDataMessage] at handled
    split at handled
    next effects sent =>
      obtain rfl := Except.ok.inj handled
      refine .same ?_ rfl
      split at sent
      next =>
        obtain rfl := Except.ok.inj sent
        simp [Message.epoch?]
      next =>
        split at sent
        next => simp at sent
        next =>
          obtain rfl := Except.ok.inj sent
          simp
    next => simp at handled

theorem mute_of_lifecycle {distributor : Distributor K V T}
    {partitioner : WorkerPartitioner K} {clones : Nat}
    {result : Distributor K V T × Effects K V T}
    (handled : distributor.lifecycle partitioner clones = .ok result) :
    Mute distributor result.1 result.2.output := by
  have noCollect (router : CollectRouter K V T) :
      ∀ message ∈ router.setAndEmitCollect.2, message.epoch? = none := by
    simp only [CollectRouter.setAndEmitCollect]
    split
    next => simp
    next =>
      split
      next => simp
      next => simp [Message.epoch?]
  have concludes (router : CollectRouter K V T) (effects : Effects K V T) :
      (router.conclude distributor.remotes effects).2.output =
        effects.output := by
    simp only [CollectRouter.conclude]
    split
    next => simp [Effects.append]
    next => rfl
  simp only [Distributor.lifecycle, MessageRouter.lifecycle] at handled
  split at handled
  next router remotes effects equation =>
    obtain rfl := Except.ok.inj handled
    split at equation
    next =>
      simp only [Except.ok.injEq, Prod.mk.injEq] at equation
      obtain ⟨rfl, rfl, rfl⟩ := equation
      exact .same (by simp) rfl
    next =>
      simp only [Except.ok.injEq, Prod.mk.injEq] at equation
      obtain ⟨rfl, rfl, rfl⟩ := equation
      exact .same (by simp) rfl
    next collectRouter _ =>
      split at equation
      next next' effects' collected =>
        simp only [Except.ok.injEq, Prod.mk.injEq] at equation
        obtain ⟨rfl, rfl, rfl⟩ := equation
        refine .same ?_ rfl
        simp only [CollectRouter.lifecycle] at collected
        split at collected
        next =>
          rw [← congrArg Prod.snd (Except.ok.inj collected), concludes]
          exact noCollect _
        next =>
          split at collected
          next =>
            rw [← congrArg Prod.snd (Except.ok.inj collected), concludes]
            simp
          next =>
            split at collected
            next => simp at collected
            next =>
              rw [← congrArg Prod.snd (Except.ok.inj collected), concludes]
              exact noCollect _
      next => simp at equation
    next finishedRouter _ =>
      simp only [FinishedRouter.lifecycle, Except.ok.injEq] at equation
      split at equation
      next =>
        simp only [Prod.mk.injEq] at equation
        obtain ⟨rfl, rfl, rfl⟩ := equation
        refine ⟨by simp [Message.epoch?], rfl, fun worker kept _ => ?_⟩
        have notRemoved := (IndexMap.mem_swapRemoveAll.mp kept).2
        simp [Distributor.frontiers, Remotes.frontier,
          IndexMap.get?_swapRemoveAll, notRemoved]
      next =>
        simp only [Prod.mk.injEq] at equation
        obtain ⟨rfl, rfl, rfl⟩ := equation
        exact .same (by simp) rfl
  next => simp at handled

namespace Announcer

section

variable [DecidableEq K] [LinearOrder T] [MaybeTime T]
  {partitioner : WorkerPartitioner K} {thisWorker : WorkerId}
  {announcer next : Announcer K V T} {event : Event K V T S}

structure Hears (announcer : Announcer K V T) (event : Event K V T S)
    (result : Distributor K V T × Effects K V T) : Prop where
  isEpoch : event.isEpoch = true
  frontiers : result.1.frontiers = announcer.heard event
  clients : ∀ worker,
    worker ∈ result.1.remotes ↔ worker ∈ announcer.distributor.remotes
  output : result.2.output = result.1.handleEpoch.output

omit [LinearOrder T] in
theorem mute_of_receiveRemote {remote : WorkerId}
    {message : NetworkMessage K V T}
    {result : Distributor K V T × Effects K V T}
    (noEpoch : ∀ epoch, message ≠ .epoch epoch)
    (handled : announcer.distributor.receiveRemote remote message partitioner
      thisWorker = .ok result) :
    Mute announcer.distributor result.1 result.2.output := by
  cases message with
  | data record => exact mute_of_handleDataMessage handled
  | epoch epoch => exact absurd rfl (noEpoch epoch)
  | barrierMarker =>
      obtain rfl := Except.ok.inj handled
      exact .modify _ remote (fun state => { state with isBarred := true })
        (fun _ => rfl) (by simp)
  | suspendMarker =>
      obtain rfl := Except.ok.inj handled
      exact .modify _ remote (fun state => { state with sentSuspend := true })
        (fun _ => rfl) (by simp)
  | acquire moved =>
      obtain rfl := Except.ok.inj handled
      exact .same (by simp [Message.epoch?]) rfl
  | upgrade version =>
      obtain rfl := Except.ok.inj handled
      exact .modify _ remote
        (fun state => { state with lastVersion := some version })
        (fun _ => rfl) (by simp)
  | ackUpgrade version =>
      obtain rfl := Except.ok.inj handled
      exact .modify _ remote
        (fun state => { state with lastAckVersion := some version })
        (fun _ => rfl) (by simp)

omit [LinearOrder T] in
theorem mute_of_receiveLocal {message : Message K V T}
    {result : Distributor K V T × Effects K V T}
    (noEpoch : ∀ epoch, message ≠ .epoch epoch)
    (handled : announcer.distributor.receiveLocal message partitioner
      thisWorker = .ok result) :
    Mute announcer.distributor result.1 result.2.output := by
  cases message with
  | data record => exact mute_of_handleDataMessage handled
  | epoch epoch => exact absurd rfl (noEpoch epoch)
  | absBarrier =>
      obtain rfl := Except.ok.inj handled
      exact .same (by simp [Distributor.handleLocalBarrier]) rfl
  | rescale trigger =>
      obtain rfl := Except.ok.inj handled
      refine ⟨?_, rfl, fun worker _ member => ?_⟩
      · simp only [Distributor.handleRescaleMessage,
          MessageRouter.handleRescale]
        split
        next => simp [Message.epoch?]
        next => simp
      · simp only [Distributor.handleRescaleMessage, Distributor.frontiers,
          Remotes.frontier, get?_addRemotes _ thisWorker member]
  | suspendMarker =>
      obtain rfl := Except.ok.inj handled
      exact .same (by simp) rfl
  | interrogate =>
      obtain rfl := Except.ok.inj handled
      exact .same (by simp) rfl
  | collect key =>
      obtain rfl := Except.ok.inj handled
      exact .same (by simp) rfl
  | acquire moved =>
      obtain rfl := Except.ok.inj handled
      exact .same (by simp) rfl

theorem step_cases (allowed : announcer.allowed event)
    (stepped : announcer.step partitioner thisWorker event = .ok next) :
    ∃ result, next = announcer.install result ∧
      (event.isEpoch = false ∧
          Mute announcer.distributor result.1 result.2.output ∨
        announcer.Hears event result) := by
  cases event with
  | receiveRemote remote message =>
      simp only [step] at stepped
      split at stepped
      next result handled =>
        refine ⟨result, (Except.ok.inj stepped).symm, ?_⟩
        cases isEpoch : message with
        | epoch epoch =>
            subst isEpoch
            obtain rfl := Except.ok.inj handled
            have client := (canReceive_flags allowed.1).1
            refine .inr ⟨rfl, ?_, fun _ => IndexMap.mem_modify, rfl⟩
            simp only [Distributor.frontiers,
              Remotes.frontier_report _ client, heard]
        | _ =>
            refine .inl ⟨rfl, mute_of_receiveRemote (fun epoch => ?_) handled⟩
            simp [isEpoch]
      next => simp at stepped
  | receiveLocal message =>
      simp only [step] at stepped
      split at stepped
      next result handled =>
        refine ⟨result, (Except.ok.inj stepped).symm, ?_⟩
        cases isEpoch : message with
        | epoch epoch =>
            subst isEpoch
            obtain rfl := Except.ok.inj handled
            refine .inr ⟨rfl, rfl, fun _ => Iff.rfl, ?_⟩
            simp [Effects.append]
        | _ =>
            refine .inl ⟨rfl, mute_of_receiveLocal (fun epoch => ?_) handled⟩
            simp [isEpoch]
      next => simp at stepped
  | tryEmitBarrier =>
      refine ⟨_, (Except.ok.inj stepped).symm, .inl ⟨rfl, ?_⟩⟩
      unfold Distributor.tryEmitBarrier
      split
      · refine .same (by simp [Message.epoch?]) ?_
        simp only [Distributor.frontiers]
        rw [Remotes.frontier_mapValues]
        exact fun _ => rfl
      · exact .same (by simp) rfl
  | tryEmitShutdown =>
      refine ⟨_, (Except.ok.inj stepped).symm, .inl ⟨rfl, ?_⟩⟩
      unfold Distributor.tryEmitShutdown
      split
      · exact .same (by simp [Message.epoch?]) rfl
      · exact .same (by simp) rfl
  | lifecycle clones =>
      simp only [step] at stepped
      split at stepped
      next result handled =>
        exact ⟨result, (Except.ok.inj stepped).symm,
          .inl ⟨rfl, mute_of_lifecycle handled⟩⟩
      next => simp at stepped
  | report report =>
      refine ⟨_, (Except.ok.inj stepped).symm, .inl ⟨rfl, .same (by simp) ?_⟩⟩
      cases report with
      | nothing => rfl
      | keys keys =>
          simp only [Distributor.takeReport]
          split <;> rfl
      | state operatorId state =>
          simp only [Distributor.takeReport]
          split <;> rfl
      | persist operatorId state => rfl

/-- No upstream but one which has joined since is behind the last epoch handed
downstream. -/
structure Tracks (announcer : Announcer K V T) : Prop where
  rising : Rising announcer.handed
  own : ∀ last, lastEpoch announcer.handed = some last →
    ∃ reached, announcer.distributor.frontiers.own = some reached ∧
      last ≤ reached
  settled : ∀ last, lastEpoch announcer.handed = some last →
    ∀ worker ∈ announcer.distributor.remotes, worker ∉ announcer.joined →
      ∃ reached,
        announcer.distributor.frontiers.remote worker = some reached ∧
          last ≤ reached
  joined : ∀ worker ∈ announcer.joined,
    worker ∈ announcer.distributor.remotes

omit [DecidableEq K] [MaybeTime T] in
theorem Tracks.start (distributor : Distributor K V T) :
    (start distributor).Tracks where
  rising := List.Pairwise.nil
  own last isLast := by simp [Announcer.start, lastEpoch] at isLast
  settled last isLast := by simp [Announcer.start, lastEpoch] at isLast
  joined := by simp [Announcer.start]

omit [LinearOrder T] [MaybeTime T] [DecidableEq K] in
theorem mem_joined_of_mute {result : Distributor K V T × Effects K V T}
    (noEpoch : ∀ message ∈ result.2.output, message.epoch? = none)
    (worker : WorkerId) :
    worker ∈ (announcer.install result).joined ↔ worker ∈ result.1.remotes ∧
      (worker ∈ announcer.joined ∨
        worker ∉ announcer.distributor.remotes) := by
  have none : (result.2.output.any fun message => message.epoch?.isSome) =
      false := by
    simpa using noEpoch
  simp [install, none, IndexMap.mem_def]

omit [DecidableEq K] [MaybeTime T] in
theorem Tracks.mute (tracks : announcer.Tracks)
    {result : Distributor K V T × Effects K V T}
    (mute : Mute announcer.distributor result.1 result.2.output) :
    (announcer.install result).Tracks := by
  have last : lastEpoch (announcer.install result).handed =
      lastEpoch announcer.handed := lastEpoch_append_untimed mute.noEpoch
  refine ⟨(Rising.append_untimed mute.noEpoch).mpr tracks.rising, ?_, ?_, ?_⟩
  · rw [last]
    intro announced isLast
    obtain ⟨reached, known, atMost⟩ := tracks.own announced isLast
    exact ⟨reached, mute.own.trans known, atMost⟩
  · rw [last]
    intro announced isLast worker client settled
    rw [mem_joined_of_mute mute.noEpoch, not_and, not_or, not_not] at settled
    obtain ⟨notJoined, member⟩ := settled client
    obtain ⟨reached, known, atMost⟩ :=
      tracks.settled announced isLast worker member notJoined
    exact ⟨reached, (mute.remote worker client member).trans known, atMost⟩
  · intro worker joined
    exact ((mem_joined_of_mute mute.noEpoch worker).mp joined).1

omit [DecidableEq K] [MaybeTime T] in
/-- The epochs of an upstream which is past the last epoch handed downstream
stay past it. -/
theorem Tracks.heard (tracks : announcer.Tracks)
    (allowed : announcer.allowed event) {last : T}
    (isLast : lastEpoch announcer.handed = some last) :
    (∃ reached, (announcer.heard event).own = some reached ∧
      last ≤ reached) ∧
    ∀ worker ∈ announcer.distributor.remotes, worker ∉ announcer.joined →
      ∃ reached, (announcer.heard event).remote worker = some reached ∧
        last ≤ reached := by
  have own := tracks.own last isLast
  have settled := tracks.settled last isLast
  cases event with
  | receiveRemote remote message =>
      cases message with
      | epoch epoch =>
          refine ⟨own, fun worker client notJoined => ?_⟩
          obtain ⟨reached, known, atMost⟩ := settled worker client notJoined
          cases eq_or_ne worker remote with
          | inl same =>
              subst same
              exact ⟨epoch, Function.update_self ..,
                atMost.trans (allowed.2 epoch rfl reached known)⟩
          | inr different =>
              exact ⟨reached, (Function.update_of_ne different ..).trans known,
                atMost⟩
      | _ => exact ⟨own, settled⟩
  | receiveLocal message =>
      cases message with
      | epoch epoch =>
          obtain ⟨reached, known, atMost⟩ := own
          exact ⟨⟨epoch, rfl, atMost.trans (allowed.2 epoch rfl reached known)⟩,
            settled⟩
      | _ => exact ⟨own, settled⟩
  | _ => exact ⟨own, settled⟩

theorem Tracks.step (merges : MergesMin T) (tracks : announcer.Tracks)
    (allowed : announcer.allowed event)
    (stepped : announcer.step partitioner thisWorker event = .ok next) :
    (announcer.caughtUp event → next.Tracks) ∧
      (Rising next.handed → announcer.caughtUp event) := by
  obtain ⟨result, rfl, ⟨noEpoch, mute⟩ | hears⟩ := step_cases allowed stepped
  · refine ⟨fun _ => tracks.mute mute, fun _ isEpoch => ?_⟩
    simp [noEpoch] at isEpoch
  obtain ⟨nothing, absent⟩ | ⟨epoch, announced, covers, attained⟩ :=
    result.1.handleEpoch_cases merges
  · have output : result.2.output = [] := by rw [hears.output, nothing]
    rw [hears.frontiers] at absent
    have missing {last : T} (isLast : lastEpoch announcer.handed = some last) :
        ∃ other ∈ announcer.distributor.remotes,
          (announcer.heard event).remote other = none := by
      obtain unknown | ⟨other, client, unknown⟩ := absent
      · obtain ⟨reached, known, -⟩ := (tracks.heard allowed isLast).1
        simp [unknown] at known
      · exact ⟨other, (hears.clients other).mp client, unknown⟩
    constructor
    · intro _
      have joined (worker : WorkerId) :
          worker ∈ (announcer.install result).joined ↔
            worker ∈ announcer.joined := by
        rw [mem_joined_of_mute (by simp [output]), hears.clients]
        have := tracks.joined worker
        tauto
      have handed : (announcer.install result).handed = announcer.handed := by
        simp [install, output]
      refine ⟨by rw [handed]; exact tracks.rising, ?_, ?_, ?_⟩
      · rw [handed]
        intro last isLast
        change ∃ reached, result.1.frontiers.own = some reached ∧ _
        rw [hears.frontiers]
        exact (tracks.heard allowed isLast).1
      · rw [handed]
        intro last isLast worker client notJoined
        change ∃ reached, result.1.frontiers.remote worker = some reached ∧ _
        rw [hears.frontiers]
        exact (tracks.heard allowed isLast).2 worker
          ((hears.clients worker).mp client) (mt (joined worker).mpr notJoined)
      · intro worker isJoined
        exact (hears.clients worker).mpr
          (tracks.joined worker ((joined worker).mp isJoined))
    · intro _ _ last isLast
      exact .inl (missing isLast)
  · have output : result.2.output = [.epoch epoch] := by
      rw [hears.output, announced]
    have handed : (announcer.install result).handed =
        announcer.handed ++ [.epoch epoch] := by
      simp [install, output]
    have present (worker : WorkerId)
        (client : worker ∈ announcer.distributor.remotes) :
        ∃ reached, (announcer.heard event).remote worker = some reached ∧
          epoch ≤ reached := by
      rw [← hears.frontiers]
      exact covers.remote worker ((hears.clients worker).mpr client)
    have nobody : ¬∃ other ∈ announcer.distributor.remotes,
        (announcer.heard event).remote other = none := by
      rintro ⟨other, client, unknown⟩
      obtain ⟨reached, known, -⟩ := present other client
      simp [unknown] at known
    rw [hears.frontiers] at attained
    constructor
    · intro caughtUp
      have atLeast (last : T) (isLast : lastEpoch announcer.handed = some last) :
          last ≤ epoch := by
        obtain ⟨⟨own, isOwn, ownLater⟩, settled⟩ := tracks.heard allowed isLast
        obtain reached | ⟨other, client, reached⟩ := attained
        · obtain rfl : own = epoch := by simpa [isOwn] using reached
          exact ownLater
        · cases Classical.em (other ∈ announcer.joined) with
          | inl joined =>
              exact (caughtUp hears.isEpoch last isLast).resolve_left nobody
                other joined epoch reached
          | inr notJoined =>
              obtain ⟨later, known, atMost⟩ :=
                settled other ((hears.clients other).mp client) notJoined
              obtain rfl : later = epoch := by simpa [known] using reached
              exact atMost
      refine ⟨?_, ?_, ?_, ?_⟩
      · rw [handed]
        exact (rising_announce tracks.rising epoch).mpr atLeast
      · rw [handed]
        intro last isLast
        obtain rfl : epoch = last := by
          simpa [lastEpoch_append_epoch] using isLast
        exact covers.own
      · rw [handed]
        intro last isLast worker client _
        obtain rfl : epoch = last := by
          simpa [lastEpoch_append_epoch] using isLast
        exact covers.remote worker client
      · simp [install, output, Message.epoch?]
    · intro rising isEpoch last isLast
      rw [handed] at rising
      refine .inr fun worker joined reached known => ?_
      obtain ⟨found, isKnown, atMost⟩ :=
        present worker (tracks.joined worker joined)
      obtain rfl : found = reached := by simpa [isKnown] using known
      exact ((rising_announce tracks.rising epoch).mp rising last isLast).trans
        atMost

end

instance [LE T] [DecidableLE T] (announcer : Announcer K V T) :
    (event : Event K V T S) → Decidable (announcer.allowed event)
  | .receiveRemote remote message => inferInstanceAs (Decidable
      (announcer.distributor.canReceive remote = true ∧
        ∀ epoch ∈ message.epoch?,
          ∀ reached ∈ announcer.distributor.frontiers.remote remote,
            reached ≤ epoch))
  | .receiveLocal message => inferInstanceAs (Decidable
      (announcer.distributor.localBarrier = false ∧
        ∀ epoch ∈ message.epoch?,
          ∀ reached ∈ announcer.distributor.frontiers.own, reached ≤ epoch))
  | .tryEmitBarrier | .tryEmitShutdown | .lifecycle _ | .report _ =>
      isTrue trivial

instance [LE T] [DecidableLE T] (announcer : Announcer K V T)
    (event : Event K V T S) : Decidable (announcer.caughtUp event) :=
  decidable_of_iff (event.isEpoch = true → ∀ last ∈ lastEpoch announcer.handed,
      (∃ other ∈ announcer.distributor.remotes.keys,
        (announcer.heard event).remote other = none) ∨
      ∀ worker ∈ announcer.joined,
        ∀ reached ∈ (announcer.heard event).remote worker, last ≤ reached)
    Iff.rfl

/-- The epochs of a distributor do not decrease in a run in which every epoch
finds the workers which have joined caught up, and decrease with the first one
which does not. -/
theorem epochs_rise [DecidableEq K] [LinearOrder T] [MaybeTime T]
    (merges : MergesMin T) {partitioner : WorkerPartitioner K}
    {thisWorker : WorkerId} {distributor : Distributor K V T}
    {announcer : Announcer K V T}
    (run : Reaches (step (S := S) partitioner thisWorker)
      (fun state event => state.allowed event ∧ state.caughtUp event)
      (start distributor) announcer) :
    Rising announcer.handed ∧
    ∀ (event : Event K V T S) next, announcer.allowed event →
      announcer.step partitioner thisWorker event = .ok next →
        (Rising next.handed ↔ announcer.caughtUp event) := by
  have tracks : announcer.Tracks :=
    run.invariant _ (Tracks.start distributor)
      fun _ _ _ _ tracks both stepped =>
        (tracks.step merges both.1 stepped).1 both.2
  refine ⟨tracks.rising, fun event next allowed stepped => ?_⟩
  obtain ⟨keeps, needs⟩ := tracks.step merges allowed stepped
  exact ⟨needs, fun caughtUp => (keeps caughtUp).rising⟩

/-- Worker 0 runs alone, announces time 5 and is joined by worker 1. -/
def joinTrace : List (Event Nat Unit Nat Nat) :=
  [.receiveLocal (.epoch 5),
    .receiveLocal (.rescale ⟨IndexSet.ofList [0, 1], 1⟩), .lifecycle 0]

def alone : Announcer Nat Unit Nat :=
  start (Distributor.fresh 0 ⟨[0], by decide⟩)

@[irreducible] def joinState : Announcer Nat Unit Nat :=
  replay (step indexSelect 0) alone joinTrace

/-- The first epoch of worker 1 is behind what worker 0 has announced. -/
theorem joining_worker_lowers_epoch :
    ¬∀ announcer : Announcer Nat Unit Nat,
      Reaches (step (S := Nat) indexSelect 0) allowed alone announcer →
        Rising announcer.handed := by
  intro rises
  have run : Reaches (step (S := Nat) indexSelect 0) allowed alone
      (replay (step indexSelect 0) alone
        (joinTrace ++ [.receiveRemote 1 (.epoch 3)])) :=
    Follows.reaches _ .refl (by decide +kernel)
  have handed : (replay (step indexSelect 0) alone
      (joinTrace ++ [.receiveRemote 1 (.epoch 3)])).handed =
        [.epoch 5, .interrogate, .epoch 3] := by decide +kernel
  have rising := rises _ run
  rw [handed] at rising
  have ordered : 5 ≤ 3 :=
    (List.pairwise_cons.mp rising).1 (.epoch 3) (by simp) 5 3 rfl rfl
  omega

theorem joinState_epochs_rise :
    Rising joinState.handed ∧ ∀ next,
      joinState.step indexSelect 0 (.receiveRemote 1 (.epoch 7) :
        Event Nat Unit Nat Nat) = .ok next →
      (Rising next.handed ↔
        joinState.caughtUp (.receiveRemote 1 (.epoch 7) :
          Event Nat Unit Nat Nat)) := by
  have run : Reaches (step (S := Nat) indexSelect 0)
      (fun state event => state.allowed event ∧ state.caughtUp event) alone
      joinState := by
    unfold joinState
    exact Follows.reaches joinTrace .refl (by decide +kernel)
  obtain ⟨rising, continues⟩ := epochs_rise mergesMin_nat run
  exact ⟨rising, fun next => continues _ next (by decide +kernel)⟩

end Announcer

end Malstrom.Keyed
