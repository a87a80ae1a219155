import Malstrom.Keyed.Run

namespace Malstrom.Keyed

open Data Channels

variable {K V T : Type}

/-! What one stage of a call does to the worker set and to the messages which
are counted. -/

/-- A router works with a worker set, or on its way from one to another. -/
inductive RouterPhase where
  | settled (workerSet : IndexSet WorkerId) (version : Version)
  | busy (oldWorkerSet : IndexSet WorkerId) (trigger : RescaleMessage)

def MessageRouter.routerPhase : MessageRouter K V T → RouterPhase
  | .normal router => .settled router.workerSet router.version
  | .interrogate router => .busy router.oldWorkerSet router.trigger
  | .collect router => .busy router.oldWorkerSet router.trigger
  | .finished router => .busy router.oldWorkerSet router.trigger

theorem RouterPhase.router_of_settled {router : MessageRouter K V T}
    {workerSet : IndexSet WorkerId} {version : Version}
    (settled : router.routerPhase = .settled workerSet version) :
    router = .normal ⟨workerSet, version⟩ := by
  cases router with
  | normal router =>
      obtain ⟨rfl, rfl⟩ := RouterPhase.settled.inj settled
      rfl
  | interrogate router => cases settled
  | collect router => cases settled
  | finished router => cases settled

theorem MessageRouter.routerPhase_routeMessage [DecidableEq K]
    (router : MessageRouter K V T) (message : DataMessage K V T)
    (version : Option Version) (partitioner : WorkerPartitioner K)
    (thisWorker sender : WorkerId) (remotes : Remotes T) :
    (router.routeMessage message version partitioner thisWorker sender
      remotes).1.routerPhase = router.routerPhase := by
  unfold routeMessage
  split
  next => rfl
  next =>
    cases router with
    | normal _ => rfl
    | interrogate router =>
        simp only [InterrogateRouter.routeMessage]
        split <;> rfl
    | collect router =>
        simp only [CollectRouter.routeMessage]
        split
        next => rfl
        next => rfl
        next => rfl
        next => split <;> rfl
    | finished _ => rfl

/-- What a stage leaves as it is: the markers, the worker set and the
clients. -/
structure Distributor.Keeps (before after : Distributor K V T) : Prop where
  localBarrier : after.localBarrier = before.localBarrier
  localShutdown : after.localShutdown = before.localShutdown
  phase : after.router.routerPhase = before.router.routerPhase
  clients : ∀ worker, worker ∈ after.remotes ↔ worker ∈ before.remotes

/-- What one stage can do to the markers, the worker set and the clients. -/
inductive Shift (thisWorker : WorkerId) (before : Distributor K V T) :
    Option (Message K V T) → Distributor K V T → List (Message K V T) → Prop
  | keeps {taken : Option (Message K V T)} {after : Distributor K V T}
      {output : List (Message K V T)} (keeps : before.Keeps after)
      (takes : ∀ message ∈ taken, message.isCounted = false)
      (hands : ∀ message ∈ output, message.isCounted = false) :
      Shift thisWorker before taken after output
  | holdsBarrier (free : before.localBarrier = false) :
      Shift thisWorker before (some .absBarrier)
        { before with localBarrier := true } []
  | handsBarrier {after : Distributor K V T}
      (held : before.localBarrier = true)
      (aligned : ∀ state ∈ before.remotes.values,
        state.isBarred = true ∨ state.sentSuspend = true)
      (keeps : Distributor.Keeps { before with localBarrier := false } after) :
      Shift thisWorker before none after [.absBarrier]
  | holdsSuspend :
      Shift thisWorker before (some .suspendMarker)
        { before with localShutdown := true } []
  | handsSuspend (held : before.localShutdown = true) :
      Shift thisWorker before none { before with localShutdown := false }
        [.suspendMarker]
  | copies {old : IndexSet WorkerId} {trigger message : RescaleMessage}
      {after : Distributor K V T} (busy : before.router.routerPhase = .busy old trigger)
      (router : after.router = before.router)
      (localBarrier : after.localBarrier = before.localBarrier)
      (localShutdown : after.localShutdown = before.localShutdown)
      (clients : ∀ worker, worker ∈ after.remotes ↔ worker ∈ before.remotes ∨
        worker ∈ message.workers ∧ worker ≠ thisWorker) :
      Shift thisWorker before (some (.rescale message)) after []
  | begins {workerSet : IndexSet WorkerId} {version : Version}
      {message : RescaleMessage} {after : Distributor K V T}
      (settled : before.router.routerPhase = .settled workerSet version)
      (busy : after.router.routerPhase = .busy workerSet message)
      (localBarrier : after.localBarrier = before.localBarrier)
      (localShutdown : after.localShutdown = before.localShutdown)
      (clients : ∀ worker, worker ∈ after.remotes ↔ worker ∈ before.remotes ∨
        worker ∈ message.workers ∧ worker ≠ thisWorker) :
      Shift thisWorker before (some (.rescale message)) after [.interrogate]
  | ends {old : IndexSet WorkerId} {trigger : RescaleMessage}
      {after : Distributor K V T} (busy : before.router.routerPhase = .busy old trigger)
      (settled : after.router =
        .normal ⟨trigger.workers, trigger.version⟩)
      (localBarrier : after.localBarrier = before.localBarrier)
      (localShutdown : after.localShutdown = before.localShutdown)
      (clients : ∀ worker, worker ∈ after.remotes ↔ worker ∈ before.remotes ∧
        ¬(worker ∈ old ∧ worker ∉ trigger.workers)) :
      Shift thisWorker before none after [.rescale trigger]

/-- The key goes to another worker under the new worker set. -/
def Moves (partitioner : WorkerPartitioner K) (old new : IndexSet WorkerId)
    (key : K) : Prop :=
  partitioner key old ≠ partitioner key new

/-- A busy router works on its trigger, and only on keys which have to be
moved. -/
def MessageRouter.Consistent (partitioner : WorkerPartitioner K) :
    MessageRouter K V T → Prop
  | .normal _ => True
  | .interrogate router => router.newWorkerSet = router.trigger.workers ∧
      (∀ key, router.interrogateMsg.tester key = true →
        Moves partitioner router.oldWorkerSet router.trigger.workers key) ∧
      ∀ key ∈ router.interrogateMsg.shared,
        Moves partitioner router.oldWorkerSet router.trigger.workers key
  | .collect router => router.newWorkerSet = router.trigger.workers ∧
      router.version = router.trigger.version ∧
      (∀ key ∈ router.whitelist,
        Moves partitioner router.oldWorkerSet router.trigger.workers key) ∧
      ∀ collect ∈ router.currentCollect,
        Moves partitioner router.oldWorkerSet router.trigger.workers collect.key
  | .finished router => router.newWorkerSet = router.trigger.workers ∧
      router.version = router.trigger.version

section

variable [DecidableEq K] {partitioner : WorkerPartitioner K}
  {thisWorker : WorkerId}

theorem InterrogateRouter.consistent_addKeys {router : InterrogateRouter K}
    (consistent : MessageRouter.Consistent (V := V) (T := T) partitioner
      (.interrogate router)) (keys : List K) :
    MessageRouter.Consistent (V := V) (T := T) partitioner
      (.interrogate { router with
        interrogateMsg := router.interrogateMsg.addKeys keys }) := by
  refine ⟨consistent.1, consistent.2.1, fun key member => ?_⟩
  cases Interrogate.mem_addKeys.mp member with
  | inl before => exact consistent.2.2 key before
  | inr added => exact consistent.2.1 key added.2

theorem MessageRouter.consistent_routeMessage {router : MessageRouter K V T}
    (consistent : router.Consistent partitioner) (message : DataMessage K V T)
    (version : Option Version) (sender : WorkerId) (remotes : Remotes T) :
    (router.routeMessage message version partitioner thisWorker sender
      remotes).1.Consistent partitioner := by
  unfold routeMessage
  split
  next => exact consistent
  next =>
    cases router with
    | normal _ => exact consistent
    | interrogate router =>
        simp only [InterrogateRouter.routeMessage]
        split
        next => exact InterrogateRouter.consistent_addKeys consistent _
        next => exact consistent
        next => exact consistent
    | collect router =>
        simp only [CollectRouter.routeMessage]
        split
        next => exact consistent
        next => exact consistent
        next => exact consistent
        next => split <;> exact consistent
    | finished _ => exact consistent

omit [DecidableEq K] in
theorem MessageRouter.consistent_handleRescale {router : MessageRouter K V T}
    (consistent : router.Consistent partitioner) (message : RescaleMessage) :
    (router.handleRescale message partitioner).1.Consistent partitioner := by
  cases router with
  | normal router =>
      refine ⟨rfl, fun key needed => ?_, fun key member => ?_⟩
      · simpa [InterrogateRouter.new, Interrogate.new, Moves] using needed
      · simp [InterrogateRouter.new, Interrogate.new] at member
  | interrogate _ => exact consistent
  | collect _ => exact consistent
  | finished _ => exact consistent

end

theorem CollectRouter.consistent_setAndEmitCollect
    {partitioner : WorkerPartitioner K} {router : CollectRouter K V T}
    (consistent : MessageRouter.Consistent partitioner (.collect router)) :
    MessageRouter.Consistent partitioner (.collect router.setAndEmitCollect.1) ∧
      router.setAndEmitCollect.1.oldWorkerSet = router.oldWorkerSet ∧
      router.setAndEmitCollect.1.trigger = router.trigger ∧
      ∀ message ∈ router.setAndEmitCollect.2, ∃ key, message = .collect key ∧
        Moves partitioner router.oldWorkerSet router.trigger.workers key := by
  obtain ⟨isNew, version, listed, current⟩ := consistent
  unfold setAndEmitCollect
  split
  next => exact ⟨⟨isNew, version, listed, current⟩, rfl, rfl, by simp⟩
  next =>
    split
    next => exact ⟨⟨isNew, version, listed, current⟩, rfl, rfl, by simp⟩
    next key rest popped =>
      have split := (IndexSet.pop_eq_some popped).1
      have moves := listed key ((split key).mpr (.inr rfl))
      refine ⟨⟨isNew, version, fun other member => ?_, ?_⟩, rfl, rfl, ?_⟩
      · exact listed other ((split other).mpr (.inl member))
      · rintro collect isCurrent
        obtain rfl := Option.some.inj isCurrent
        exact moves
      · intro message member
        exact ⟨key, List.mem_singleton.mp member, moves⟩

namespace Distributor

theorem Keeps.refl (distributor : Distributor K V T) :
    distributor.Keeps distributor :=
  ⟨rfl, rfl, rfl, fun _ => Iff.rfl⟩

theorem keeps_modify (before : Distributor K V T) (remote : WorkerId)
    (change : RemoteState T → RemoteState T) :
    before.Keeps
      { before with remotes := before.remotes.modify remote change } :=
  ⟨rfl, rfl, rfl, fun _ => IndexMap.mem_modify⟩

theorem uncounted_handleEpoch [MaybeTime T] (distributor : Distributor K V T) :
    ∀ message ∈ distributor.handleEpoch.output, ∃ epoch,
      message = .epoch epoch := by
  simp only [handleEpoch]
  split
  next epoch _ => simp
  next => simp

section

variable [DecidableEq K] {partitioner : WorkerPartitioner K}
  {thisWorker : WorkerId} {before after : Distributor K V T}
  {effects : Effects K V T}

theorem handleDataMessage_keeps
    (consistent : before.router.Consistent partitioner)
    {message : DataMessage K V T} {version : Option Version}
    {sender : WorkerId}
    (handled : before.handleDataMessage message version partitioner thisWorker
      sender = .ok (after, effects)) :
    before.Keeps after ∧ after.router.Consistent partitioner ∧
      ∀ handed ∈ effects.output, ∃ record, handed = .data record := by
  obtain ⟨rfl, output⟩ := handleDataMessage_kept handled
  refine ⟨⟨rfl, rfl, ?_, fun _ => Iff.rfl⟩, ?_, output⟩
  · exact MessageRouter.routerPhase_routeMessage ..
  · exact MessageRouter.consistent_routeMessage consistent ..

theorem receiveRemote_keeps [MaybeTime T]
    (consistent : before.router.Consistent partitioner) {remote : WorkerId}
    {message : NetworkMessage K V T}
    (handled : before.receiveRemote remote message partitioner thisWorker =
      .ok (after, effects)) :
    before.Keeps after ∧ after.router.Consistent partitioner ∧
      ∀ handed ∈ effects.output,
        handed.isCounted = false ∧ ∀ key, handed ≠ .collect key := by
  cases message with
  | data record =>
      obtain ⟨keeps, stays, output⟩ := handleDataMessage_keeps consistent handled
      refine ⟨keeps, stays, fun handed member => ?_⟩
      obtain ⟨kept, rfl⟩ := output handed member
      exact ⟨rfl, fun _ => nofun⟩
  | epoch epoch =>
      obtain ⟨rfl, rfl⟩ := Prod.mk.inj (Except.ok.inj handled)
      refine ⟨keeps_modify .., consistent, fun handed member => ?_⟩
      obtain ⟨emitted, rfl⟩ := uncounted_handleEpoch _ handed member
      exact ⟨rfl, fun _ => nofun⟩
  | barrierMarker =>
      obtain ⟨rfl, rfl⟩ := Prod.mk.inj (Except.ok.inj handled)
      exact ⟨keeps_modify .., consistent, by simp⟩
  | suspendMarker =>
      obtain ⟨rfl, rfl⟩ := Prod.mk.inj (Except.ok.inj handled)
      exact ⟨keeps_modify .., consistent, by simp⟩
  | acquire moved =>
      obtain ⟨rfl, rfl⟩ := Prod.mk.inj (Except.ok.inj handled)
      exact ⟨.refl _, consistent, by simp [Message.isCounted]⟩
  | upgrade version =>
      obtain ⟨rfl, rfl⟩ := Prod.mk.inj (Except.ok.inj handled)
      exact ⟨keeps_modify .., consistent, by simp⟩
  | ackUpgrade version =>
      obtain ⟨rfl, rfl⟩ := Prod.mk.inj (Except.ok.inj handled)
      exact ⟨keeps_modify .., consistent, by simp⟩

/-- What the messages handed downstream say about keys: one is collected only
on the way to another worker set under which it moves. -/
def Collects (partitioner : WorkerPartitioner K) (before : Distributor K V T)
    (output : List (Message K V T)) : Prop :=
  ∀ key, .collect key ∈ output → ∃ old trigger,
    before.router.routerPhase = .busy old trigger ∧
      Moves partitioner old trigger.workers key

theorem receiveLocal_shift [MaybeTime T]
    (consistent : before.router.Consistent partitioner)
    (free : before.localBarrier = false) {message : Message K V T}
    (handled : before.receiveLocal message partitioner thisWorker =
      .ok (after, effects)) :
    Shift thisWorker before (some message) after effects.output ∧
      after.router.Consistent partitioner ∧
      before.Collects partitioner effects.output := by
  cases message with
  | data record =>
      obtain ⟨keeps, stays, output⟩ := handleDataMessage_keeps consistent handled
      refine ⟨.keeps keeps (by simp [Message.isCounted]) ?_, stays, ?_⟩
      · intro handed member
        obtain ⟨kept, rfl⟩ := output handed member
        rfl
      · intro key member
        obtain ⟨kept, same⟩ := output _ member
        cases same
  | epoch epoch =>
      obtain ⟨rfl, rfl⟩ := Prod.mk.inj (Except.ok.inj handled)
      have output := uncounted_handleEpoch
        { before with localFrontier := some epoch }
      refine ⟨.keeps ⟨rfl, rfl, rfl, fun _ => Iff.rfl⟩
        (by simp [Message.isCounted]) ?_, consistent, ?_⟩
      · intro handed member
        obtain ⟨emitted, rfl⟩ := output handed
          (by simpa [Effects.append] using member)
        rfl
      · intro key member
        obtain ⟨emitted, same⟩ := output _
          (by simpa [Effects.append] using member)
        cases same
  | absBarrier =>
      obtain ⟨rfl, rfl⟩ := Prod.mk.inj (Except.ok.inj handled)
      exact ⟨.holdsBarrier free, consistent, by simp [Collects]⟩
  | rescale message =>
      obtain ⟨rfl, rfl⟩ := Prod.mk.inj (Except.ok.inj handled)
      refine ⟨?_, MessageRouter.consistent_handleRescale consistent message, ?_⟩
      · cases isRouter : before.router with
        | normal router =>
            have settled : before.router.routerPhase =
                .settled router.workerSet router.version := by
              rw [isRouter]
              rfl
            simp only [MessageRouter.handleRescale]
            exact .begins settled rfl rfl rfl fun worker => mem_addRemotes
        | interrogate router | collect router | finished router =>
            have busy : before.router.routerPhase =
                .busy router.oldWorkerSet router.trigger := by
              rw [isRouter]
              rfl
            simp only [MessageRouter.handleRescale]
            exact .copies busy isRouter.symm rfl rfl fun worker =>
              mem_addRemotes
      · intro key member
        cases isRouter : before.router <;>
          simp [MessageRouter.handleRescale, isRouter] at member
  | suspendMarker =>
      obtain ⟨rfl, rfl⟩ := Prod.mk.inj (Except.ok.inj handled)
      exact ⟨.holdsSuspend, consistent, by simp [Collects]⟩
  | interrogate | collect key | acquire moved =>
      obtain ⟨rfl, rfl⟩ := Prod.mk.inj (Except.ok.inj handled)
      exact ⟨.keeps (.refl _) (by simp [Message.isCounted]) (by simp),
        consistent, by simp [Collects]⟩

omit [DecidableEq K] in
theorem tryEmitBarrier_shift :
    Shift thisWorker before none before.tryEmitBarrier.1
      before.tryEmitBarrier.2.output := by
  simp only [tryEmitBarrier]
  split
  next aligned =>
    simp only [Bool.and_eq_true, List.all_eq_true, Bool.or_eq_true] at aligned
    refine .handsBarrier aligned.1 aligned.2 ⟨rfl, rfl, rfl, ?_⟩
    exact fun _ => IndexMap.mem_mapValues
  next => exact .keeps (.refl _) (by simp) (by simp)

omit [DecidableEq K] in
theorem tryEmitShutdown_shift :
    Shift thisWorker before none before.tryEmitShutdown.1
      before.tryEmitShutdown.2.output := by
  simp only [tryEmitShutdown]
  split
  next aligned =>
    simp only [Bool.and_eq_true] at aligned
    exact .handsSuspend aligned.1
  next => exact .keeps (.refl _) (by simp) (by simp)

omit [DecidableEq K] in
/-- Where the router is still collecting, or has just finished collecting. -/
theorem conclude_phase {router : CollectRouter K V T} {remotes : Remotes T}
    {emitted : Effects K V T}
    (consistent : MessageRouter.Consistent partitioner (.collect router)) :
    (router.conclude remotes emitted).1.routerPhase =
        .busy router.oldWorkerSet router.trigger ∧
      (router.conclude remotes emitted).1.Consistent partitioner ∧
      (router.conclude remotes emitted).2.output = emitted.output := by
  simp only [CollectRouter.conclude]
  split
  next => exact ⟨rfl, ⟨consistent.1, rfl⟩, by simp [Effects.append]⟩
  next => exact ⟨rfl, consistent, rfl⟩

omit [DecidableEq K] in
/-- A collecting router stays on its way, and collects keys which move. -/
theorem collect_lifecycle {router : CollectRouter K V T} {clones : Nat}
    {remotes : Remotes T} {next : MessageRouter K V T}
    (consistent : MessageRouter.Consistent partitioner (.collect router))
    (handled : router.lifecycle partitioner remotes clones =
      .ok (next, effects)) :
    next.routerPhase = .busy router.oldWorkerSet router.trigger ∧
      next.Consistent partitioner ∧
      ∀ message ∈ effects.output, ∃ key, message = .collect key ∧
        Moves partitioner router.oldWorkerSet router.trigger.workers key := by
  simp only [CollectRouter.lifecycle] at handled
  split at handled
  next =>
    obtain ⟨rfl, rfl⟩ := Prod.ext_iff.mp (Except.ok.inj handled)
    obtain ⟨stays, old, trigger, output⟩ :=
      CollectRouter.consistent_setAndEmitCollect consistent
    refine ⟨?_, (conclude_phase stays).2.1, ?_⟩
    · rw [(conclude_phase stays).1, old, trigger]
    · rw [(conclude_phase stays).2.2]
      exact output
  next collect current =>
    split at handled
    next collect refused =>
      obtain ⟨rfl, rfl⟩ := Prod.ext_iff.mp (Except.ok.inj handled)
      have kept : { router with currentCollect := some collect } = router := by
        simp only [Collect.tryIntoAcquire] at refused
        split at refused
        next => simp at refused
        next => rw [← Except.error.inj refused, ← current]
      rw [kept]
      exact ⟨(conclude_phase consistent).1, (conclude_phase consistent).2.1,
        by simp [(conclude_phase consistent).2.2]⟩
    next acquire unwrapped =>
      split at handled
      next => simp at handled
      next =>
        obtain ⟨rfl, rfl⟩ := Prod.ext_iff.mp (Except.ok.inj handled)
        have free : MessageRouter.Consistent (V := V) (T := T) partitioner
            (.collect { router with buffered := [], currentCollect := none }) :=
          ⟨consistent.1, consistent.2.1, consistent.2.2.1, by simp⟩
        obtain ⟨stays, old, trigger, output⟩ :=
          CollectRouter.consistent_setAndEmitCollect free
        refine ⟨?_, (conclude_phase stays).2.1, ?_⟩
        · rw [(conclude_phase stays).1, old, trigger]
        · rw [(conclude_phase stays).2.2]
          exact output

omit [DecidableEq K] in
theorem lifecycle_shift {clones : Nat}
    (consistent : before.router.Consistent partitioner)
    (handled : before.lifecycle partitioner clones = .ok (after, effects)) :
    Shift thisWorker before none after effects.output ∧
      after.router.Consistent partitioner ∧
      before.Collects partitioner effects.output := by
  simp only [lifecycle] at handled
  split at handled
  next router remotes emitted stepped =>
    obtain ⟨rfl, rfl⟩ := Prod.mk.inj (Except.ok.inj handled)
    cases isRouter : before.router with
    | normal normalRouter =>
        simp only [isRouter, MessageRouter.lifecycle, Except.ok.injEq,
          Prod.mk.injEq] at stepped
        obtain ⟨rfl, rfl, rfl⟩ := stepped
        exact ⟨.keeps ⟨rfl, rfl, by rw [isRouter], fun _ => Iff.rfl⟩ (by simp)
          (by simp), trivial, by simp [Collects]⟩
    | interrogate interrogateRouter =>
        simp only [isRouter, MessageRouter.lifecycle, Except.ok.injEq,
          Prod.mk.injEq] at stepped
        obtain ⟨rfl, rfl, rfl⟩ := stepped
        rw [isRouter] at consistent
        refine ⟨.keeps ⟨rfl, rfl, ?_, fun _ => Iff.rfl⟩ (by simp) (by simp), ?_,
          by simp [Collects]⟩
        · simp only [isRouter, InterrogateRouter.lifecycle]
          split <;> rfl
        · simp only [InterrogateRouter.lifecycle, Interrogate.tryUnwrap]
          split
          next whitelist unwrapped =>
            split at unwrapped
            next =>
              obtain rfl := Except.ok.inj unwrapped
              exact ⟨consistent.1, rfl, consistent.2.2, by
                simp [CollectRouter.new]⟩
            next => simp at unwrapped
          next interrogateMsg refused =>
            split at refused
            next => simp at refused
            next =>
              obtain rfl := Except.error.inj refused
              exact consistent
    | collect collectRouter =>
        simp only [isRouter, MessageRouter.lifecycle] at stepped
        split at stepped
        next next' handed collected =>
          obtain ⟨rfl, rfl, rfl⟩ := by simpa using stepped
          rw [isRouter] at consistent
          obtain ⟨phase, stays, output⟩ := collect_lifecycle consistent collected
          refine ⟨.keeps ⟨rfl, rfl, ?_, fun _ => Iff.rfl⟩ (by simp) ?_, stays, ?_⟩
          · rw [isRouter]
            exact phase
          · intro message member
            obtain ⟨key, rfl, -⟩ := output message member
            rfl
          · intro key member
            obtain ⟨moved, same, moves⟩ := output _ member
            cases same
            exact ⟨_, _, by rw [isRouter]; rfl, moves⟩
        next => simp at stepped
    | finished finishedRouter =>
        simp only [isRouter, MessageRouter.lifecycle, Except.ok.injEq,
          FinishedRouter.lifecycle] at stepped
        rw [isRouter] at consistent
        split at stepped
        next upgraded =>
          obtain ⟨rfl, rfl, rfl⟩ := by simpa using stepped
          refine ⟨.ends (by rw [isRouter]; rfl) ?_ rfl rfl ?_, trivial, ?_⟩
          · simp only [consistent.1, consistent.2]
          · intro worker
            simp only [IndexMap.mem_swapRemoveAll, ← consistent.1,
              ← IndexSet.mem_def, IndexSet.mem_difference]
          · simp [Collects]
        next =>
          obtain ⟨rfl, rfl, rfl⟩ := by simpa using stepped
          exact ⟨.keeps ⟨rfl, rfl, by rw [isRouter], fun _ => Iff.rfl⟩ (by simp)
            (by simp), consistent, by simp [Collects]⟩
  next => simp at handled

end

end Distributor

/-- What a stage does to the markers, the worker set and the clients, and which
keys it collects. -/
theorem Stage.shift [DecidableEq K] [MaybeTime T]
    {partitioner : WorkerPartitioner K} {thisWorker : WorkerId}
    {before after : Distributor K V T} {taken : Option (Message K V T)}
    {effects : Effects K V T}
    (consistent : before.router.Consistent partitioner)
    (stage : Stage partitioner thisWorker before taken after effects) :
    Shift thisWorker before taken after effects.output ∧
      after.router.Consistent partitioner ∧
      before.Collects partitioner effects.output := by
  cases stage with
  | heard handled =>
      obtain ⟨keeps, stays, output⟩ :=
        Distributor.receiveRemote_keeps consistent handled
      exact ⟨.keeps keeps (by simp) fun handed member =>
          (output handed member).1, stays,
        fun key member => absurd rfl ((output _ member).2 key)⟩
  | received free handled =>
      exact Distributor.receiveLocal_shift consistent free handled
  | barrier =>
      refine ⟨Distributor.tryEmitBarrier_shift, ?_, ?_⟩
      · simp only [Distributor.tryEmitBarrier]
        split <;> exact consistent
      · simp only [Distributor.tryEmitBarrier]
        split <;> simp [Distributor.Collects]
  | shutdown =>
      refine ⟨Distributor.tryEmitShutdown_shift, ?_, ?_⟩
      · simp only [Distributor.tryEmitShutdown]
        split <;> exact consistent
      · simp only [Distributor.tryEmitShutdown]
        split <;> simp [Distributor.Collects]
  | lifecycle handled => exact Distributor.lifecycle_shift consistent handled

namespace Distributor

variable [DecidableEq K] [MaybeTime T] {partitioner : WorkerPartitioner K}
  {thisWorker : WorkerId} {before after : Distributor K V T}

omit [DecidableEq K] [MaybeTime T] in
theorem Keeps.trans {middle : Distributor K V T} (first : before.Keeps middle)
    (second : middle.Keeps after) : before.Keeps after where
  localBarrier := second.localBarrier.trans first.localBarrier
  localShutdown := second.localShutdown.trans first.localShutdown
  phase := second.phase.trans first.phase
  clients worker := (second.clients worker).trans (first.clients worker)

/-- The messages of the remotes change neither the markers nor the worker
set. -/
theorem receiveRemotes_keeps
    {messages : List (WorkerId × NetworkMessage K V T)}
    {effects : Effects K V T} (consistent : before.router.Consistent partitioner)
    (handled : before.receiveRemotes partitioner thisWorker messages =
      .ok (after, effects)) :
    before.Keeps after ∧ after.router.Consistent partitioner := by
  induction messages generalizing before effects with
  | nil =>
      obtain ⟨rfl, -⟩ := by simpa [receiveRemotes] using handled
      exact ⟨.refl _, consistent⟩
  | cons addressed rest ih =>
      obtain ⟨remote, message⟩ := addressed
      simp only [receiveRemotes] at handled
      split at handled
      next => simp at handled
      next middle first received =>
        split at handled
        next => simp at handled
        next last later following =>
          obtain ⟨rfl, -⟩ := by simpa using handled
          obtain ⟨keeps, stays, -⟩ := receiveRemote_keeps consistent received
          obtain ⟨keeps', stays⟩ := ih stays following
          exact ⟨keeps.trans keeps', stays⟩

variable [LT T] [DecidableLT T]

theorem run_eq_ok {input : Input K V T} {mail : Mailbox K V T} {clones : Nat}
    {result : RunResult K V T}
    (ran : before.run input mail partitioner thisWorker clones = .ok result) :
    ∃ heard received fromRemotes fromLocal ending,
      before.receiveRemotes partitioner thisWorker
        (before.remoteMessages mail) = .ok (heard, fromRemotes) ∧
      heard.runLocal input partitioner thisWorker =
        .ok (received, result.input, result.taken, fromLocal) ∧
      received.tryEmitBarrier.1.tryEmitShutdown.1.lifecycle partitioner
        clones = .ok (result.distributor, ending) ∧
      result.mail = before.leftMail mail ∧
      result.effects.output = fromRemotes.output ++ fromLocal.output ++
        received.tryEmitBarrier.2.output ++
        received.tryEmitBarrier.1.tryEmitShutdown.2.output ++
        ending.output := by
  simp only [run] at ran
  split at ran
  next => simp at ran
  next heard fromRemotes hearing =>
    split at ran
    next => simp at ran
    next received next taken fromLocal receiving =>
      split at ran
      next => simp at ran
      next last ending cycling =>
        obtain rfl := Except.ok.inj ran
        exact ⟨heard, received, fromRemotes, fromLocal, ending, hearing,
          receiving, cycling, rfl, rfl⟩

/-- A call is one stage after the other.  With a barrier pending it takes
nothing from the local upstream, and otherwise what `recv` returns. -/
theorem run_stages {input : Input K V T} {mail : Mailbox K V T} {clones : Nat}
    {result : RunResult K V T} (consistent : before.router.Consistent partitioner)
    (ran : before.run input mail partitioner thisWorker clones = .ok result) :
    Stages partitioner thisWorker before result.taken.toList
        result.distributor result.effects.output ∧
      if before.localBarrier then result.taken = none ∧ result.input = input
      else input.recv = .ok (result.taken, result.input) := by
  obtain ⟨heard, received, fromRemotes, fromLocal, ending, hearing, receiving,
    cycling, -, output⟩ := run_eq_ok ran
  have first := receiveRemotes_stages hearing
  have pending := (receiveRemotes_keeps consistent hearing).1.localBarrier
  have rest : Stages partitioner thisWorker received [] result.distributor
      (received.tryEmitBarrier.2.output ++
        (received.tryEmitBarrier.1.tryEmitShutdown.2.output ++
          ending.output)) :=
    (Stage.single .barrier).append
      ((Stage.single .shutdown).append (Stage.single (.lifecycle cycling)))
  have middle : Stages partitioner thisWorker heard result.taken.toList received
      fromLocal.output ∧
      if before.localBarrier then result.taken = none ∧ result.input = input
      else input.recv = .ok (result.taken, result.input) := by
    simp only [runLocal, pending] at receiving
    split at receiving
    next held =>
      simp only [Except.ok.injEq, Prod.mk.injEq] at receiving
      obtain ⟨rfl, same, nothing, rfl⟩ := receiving
      rw [← nothing, if_pos held]
      exact ⟨.done, rfl, same.symm⟩
    next free =>
      rw [if_neg free]
      split at receiving
      next => simp at receiving
      next next' idle =>
        simp only [Except.ok.injEq, Prod.mk.injEq] at receiving
        obtain ⟨rfl, rfl, nothing, rfl⟩ := receiving
        rw [← nothing]
        exact ⟨.done, idle⟩
      next message next' took =>
        split at receiving
        next => simp at receiving
        next handled effects handling =>
          simp only [Except.ok.injEq, Prod.mk.injEq] at receiving
          obtain ⟨rfl, rfl, one, rfl⟩ := receiving
          rw [← one]
          refine ⟨Stage.single (.received ?_ handling), took⟩
          rw [pending]
          simpa using free
  refine ⟨?_, middle.2⟩
  have all := first.append (middle.1.append rest)
  simpa [output] using all

end Distributor

/-! ### Counted messages -/

/-- A busy router holds the rescale message it works on. -/
def RouterPhase.held : RouterPhase → List (Message K V T)
  | .settled _ _ => []
  | .busy _ trigger => [.rescale trigger]

def Distributor.held (distributor : Distributor K V T) : List (Message K V T) :=
  (if distributor.localBarrier then [.absBarrier] else []) ++
    (if distributor.localShutdown then [.suspendMarker] else []) ++
    distributor.router.routerPhase.held

theorem Distributor.Keeps.held {before after : Distributor K V T}
    (keeps : before.Keeps after) : after.held = before.held := by
  simp only [Distributor.held, keeps.localBarrier, keeps.localShutdown,
    keeps.phase]

theorem Distributor.mem_held {distributor : Distributor K V T}
    {message : Message K V T} : message ∈ distributor.held ↔
      (message = .absBarrier ∧ distributor.localBarrier = true) ∨
      (message = .suspendMarker ∧ distributor.localShutdown = true) ∨
      message ∈ distributor.router.routerPhase.held := by
  simp only [held, List.mem_append, or_assoc]
  cases distributor.localBarrier <;> cases distributor.localShutdown <;> simp

section

variable {thisWorker : WorkerId} {before after : Distributor K V T}
  {taken : Option (Message K V T)} {output : List (Message K V T)}

theorem Shift.counted (shift : Shift thisWorker before taken after output)
    {message : Message K V T} (isCounted : message.isCounted = true)
    (member : message ∈ output ∨ message ∈ after.held) :
    message ∈ taken ∨ message ∈ before.held := by
  cases shift with
  | keeps keeps takes hands =>
      cases member with
      | inl handed => simp [hands message handed] at isCounted
      | inr held => exact .inr (keeps.held ▸ held)
  | holdsBarrier free => grind [Distributor.mem_held]
  | handsBarrier held aligned keeps =>
      rw [keeps.held] at member
      grind [Distributor.mem_held]
  | holdsSuspend => grind [Distributor.mem_held]
  | handsSuspend held => grind [Distributor.mem_held]
  | copies busy router localBarrier localShutdown clients =>
      grind [Distributor.mem_held]
  | @begins _ _ trigger _ settled busy localBarrier localShutdown clients =>
      have started : ∀ held ∈ after.held, held ∈ before.held ∨
          held = .rescale trigger := by
        simp only [Distributor.mem_held, settled, busy, localBarrier,
          localShutdown, RouterPhase.held, List.mem_singleton]
        tauto
      cases member with
      | inl handed =>
          obtain rfl := List.mem_singleton.mp handed
          simp [Message.isCounted] at isCounted
      | inr held =>
          cases started message held with
          | inl before => exact .inr before
          | inr same => exact .inl (by rw [same]; rfl)
  | ends busy settled localBarrier localShutdown clients =>
      have finished : ∀ held ∈ after.held, held ∈ before.held := by
        simp only [Distributor.mem_held, settled, localBarrier,
          localShutdown, MessageRouter.routerPhase, RouterPhase.held]
        simp
        tauto
      cases member with
      | inl handed =>
          obtain rfl := List.mem_singleton.mp handed
          refine .inr (Distributor.mem_held.mpr (.inr (.inr ?_)))
          simp [busy, RouterPhase.held]
      | inr held => exact .inr (finished message held)

theorem Shift.barriers (shift : Shift thisWorker before taken after output) :
    taken.toList.countP Message.isBarrier + before.localBarrier.toNat =
      output.countP Message.isBarrier + after.localBarrier.toNat := by
  have uncounted : ∀ message : Message K V T, message.isCounted = false →
      message.isBarrier = false := by
    intro message uncounted
    cases message <;> simp_all [Message.isCounted, Message.isBarrier]
  cases shift with
  | keeps keeps takes hands =>
      rw [keeps.localBarrier, List.countP_eq_zero.mpr, List.countP_eq_zero.mpr]
      · intro message member
        simp [uncounted message (hands message member)]
      · intro message member
        have member : message ∈ taken := by simpa using member
        simp [uncounted message (takes message member)]
  | holdsBarrier free => simp [free, Message.isBarrier]
  | handsBarrier held aligned keeps =>
      simp [held, keeps.localBarrier, Message.isBarrier]
  | holdsSuspend => simp [Message.isBarrier]
  | handsSuspend held => simp [Message.isBarrier]
  | copies busy router localBarrier localShutdown clients =>
      simp [localBarrier, Message.isBarrier]
  | begins settled busy localBarrier localShutdown clients =>
      simp [localBarrier, Message.isBarrier]
  | ends busy settled localBarrier localShutdown clients =>
      simp [localBarrier, Message.isBarrier]

end

/-! ### Worker set and clients -/

/-- The workers which a router in this phase has to reach. -/
def RouterPhase.connects (thisWorker : WorkerId) :
    RouterPhase → WorkerId → Prop
  | .settled workerSet _, worker => worker ∈ workerSet ∧ worker ≠ thisWorker
  | .busy old trigger, worker =>
      (worker ∈ old ∨ worker ∈ trigger.workers) ∧ worker ≠ thisWorker

def Distributor.Connected (thisWorker : WorkerId)
    (distributor : Distributor K V T) : Prop :=
  ∀ worker, worker ∈ distributor.remotes ↔
    distributor.router.routerPhase.connects thisWorker worker

/-- A worker set without this worker is that of the current rescale. -/
def Distributor.Belongs (thisWorker : WorkerId)
    (current : Option RescaleMessage) (distributor : Distributor K V T) : Prop :=
  ∀ workerSet version,
    distributor.router.routerPhase = .settled workerSet version →
      thisWorker ∈ workerSet ∨
        ∃ message, current = some message ∧ workerSet = message.workers

/-- All rescale messages which are taken or held are the current one. -/
def Distributor.Current (current : Option RescaleMessage)
    (distributor : Distributor K V T) (taken : List (Message K V T)) : Prop :=
  ∀ message, .rescale message ∈ taken ∨
    .rescale message ∈ distributor.held → current = some message

section

variable {thisWorker : WorkerId} {before after : Distributor K V T}
  {taken : Option (Message K V T)} {output : List (Message K V T)}

theorem Distributor.Current.trigger {current : Option RescaleMessage}
    {distributor : Distributor K V T} {messages : List (Message K V T)}
    (isCurrent : distributor.Current current messages)
    {old : IndexSet WorkerId} {trigger : RescaleMessage}
    (busy : distributor.router.routerPhase = .busy old trigger) :
    current = some trigger := by
  apply isCurrent trigger
  refine .inr (Distributor.mem_held.mpr (.inr (.inr ?_)))
  simp [busy, RouterPhase.held]

theorem Shift.connected {current : Option RescaleMessage}
    (shift : Shift thisWorker before taken after output)
    (isCurrent : before.Current current taken.toList)
    (connected : before.Connected thisWorker) : after.Connected thisWorker := by
  cases shift with
  | keeps keeps takes hands =>
      intro worker
      rw [keeps.clients, keeps.phase]
      exact connected worker
  | holdsBarrier free => exact connected
  | handsBarrier held aligned keeps =>
      intro worker
      rw [keeps.clients, keeps.phase]
      exact connected worker
  | holdsSuspend => exact connected
  | handsSuspend held => exact connected
  | @copies old trigger message _ busy router localBarrier localShutdown
      clients =>
      -- the copy is of the message the router is working on
      have same : trigger = message := by
        have one := isCurrent.trigger busy
        have two := isCurrent message (.inl (by simp))
        exact Option.some.inj (one.symm.trans two)
      subst same
      intro worker
      rw [clients, connected, router, busy]
      simp only [RouterPhase.connects]
      tauto
  | begins settled busy localBarrier localShutdown clients =>
      intro worker
      rw [clients, connected, settled, busy]
      simp only [RouterPhase.connects]
      tauto
  | ends busy settled localBarrier localShutdown clients =>
      intro worker
      rw [clients, connected, settled, busy]
      simp only [RouterPhase.connects, MessageRouter.routerPhase]
      tauto

theorem Shift.belongs {current : Option RescaleMessage}
    (shift : Shift thisWorker before taken after output)
    (isCurrent : before.Current current taken.toList)
    (belongs : before.Belongs thisWorker current) :
    after.Belongs thisWorker current := by
  cases shift with
  | keeps keeps takes hands =>
      intro workerSet version phase
      exact belongs workerSet version (keeps.phase ▸ phase)
  | holdsBarrier free => exact belongs
  | handsBarrier held aligned keeps =>
      intro workerSet version phase
      exact belongs workerSet version (keeps.phase ▸ phase)
  | holdsSuspend => exact belongs
  | handsSuspend held => exact belongs
  | copies busy router localBarrier localShutdown clients =>
      intro workerSet version phase
      rw [router, busy] at phase
      cases phase
  | begins settled busy localBarrier localShutdown clients =>
      intro workerSet version phase
      rw [busy] at phase
      cases phase
  | ends busy settled localBarrier localShutdown clients =>
      intro workerSet version phase
      rw [settled] at phase
      cases phase
      exact .inr ⟨_, isCurrent.trigger busy, rfl⟩

end

/-! ### The course of one rescale -/

/-- How far a distributor has got with a rescale: not reached, in its first
cycle, or past it.  After the first cycle no key is collected. -/
inductive Progress (message : RescaleMessage) (handed : List (Message K V T))
    (distributor : Distributor K V T) : Bool → Prop
  | untouched {workerSet : IndexSet WorkerId} {version : Version}
      (settled : distributor.router.routerPhase = .settled workerSet version)
      (fresh : ∀ other, .rescale other ∉ handed) :
      Progress message handed distributor false
  | first {reached : Bool} {old : IndexSet WorkerId}
      (busy : distributor.router.routerPhase = .busy old message)
      (fresh : ∀ other, .rescale other ∉ handed) :
      Progress message handed distributor reached
  | past {reached : Bool} {earlier later : List (Message K V T)}
      (phase : distributor.router.routerPhase =
          .settled message.workers message.version ∨
        distributor.router.routerPhase = .busy message.workers message)
      (split : handed = earlier ++ .rescale message :: later)
      (fresh : ∀ other, .rescale other ∉ earlier)
      (still : ∀ key, .collect key ∉ later) :
      Progress message handed distributor reached

section

variable {partitioner : WorkerPartitioner K} {thisWorker : WorkerId}
  {before after : Distributor K V T} {taken : Option (Message K V T)}
  {handed output : List (Message K V T)} {message : RescaleMessage}
  {reached : Bool}

/-- Past the first cycle the old worker set is the new one. -/
theorem Distributor.Collects.still
    (collects : before.Collects partitioner output)
    (phase : before.router.routerPhase =
        .settled message.workers message.version ∨
      before.router.routerPhase = .busy message.workers message)
    (key : K) : .collect key ∉ output := by
  intro member
  obtain ⟨old, trigger, busy, moves⟩ := collects key member
  cases phase with
  | inl settled => rw [settled] at busy; cases busy
  | inr again =>
      rw [again] at busy
      cases busy
      exact moves rfl

theorem Progress.stay (progress : Progress message handed before reached)
    (collects : before.Collects partitioner output)
    (phase : after.router.routerPhase = before.router.routerPhase)
    (hands : ∀ other, .rescale other ∉ output)
    (taken : Bool) (takes : taken = true → ∃ old trigger,
      before.router.routerPhase = .busy old trigger) :
    Progress message (handed ++ output) after (reached || taken) := by
  have fresh : (∀ other, .rescale other ∉ handed) →
      ∀ other, .rescale other ∉ handed ++ output := by
    intro fresh other
    simp [fresh other, hands other]
  cases progress with
  | untouched settled unhanded =>
      cases taken with
      | false => exact .untouched (phase.trans settled) (fresh unhanded)
      | true =>
          obtain ⟨old, trigger, busy⟩ := takes rfl
          rw [settled] at busy
          cases busy
  | first busy unhanded => exact .first (phase.trans busy) (fresh unhanded)
  | @past _ earlier later isPast split unhanded still =>
      have split : handed ++ output =
          earlier ++ .rescale message :: (later ++ output) := by simp [split]
      refine .past (phase ▸ isPast) split unhanded ?_
      intro key
      simp [still key, collects.still isPast key]

theorem Progress.of_keeps (keeps : before.Keeps after)
    (progress : Progress message handed before reached) :
    Progress message handed after reached := by
  cases progress with
  | untouched settled fresh =>
      exact .untouched (keeps.phase.trans settled) fresh
  | first busy fresh => exact .first (keeps.phase.trans busy) fresh
  | past phase split fresh still =>
      exact .past (keeps.phase ▸ phase) split fresh still

theorem Shift.progress (shift : Shift thisWorker before taken after output)
    (collects : before.Collects partitioner output)
    (isCurrent : before.Current (some message) taken.toList)
    (progress : Progress message handed before reached) :
    Progress message (handed ++ output) after
      (reached || (taken.bind Message.rescale?).isSome) := by
  cases shift with
  | keeps keeps takes hands =>
      refine progress.stay collects keeps.phase ?_ _ ?_
      · intro other member
        have uncounted := hands _ member
        simp [Message.isCounted] at uncounted
      · intro isRescale
        obtain ⟨rescale, taking⟩ := Option.isSome_iff_exists.mp isRescale
        obtain ⟨counted, member, same⟩ := Option.bind_eq_some_iff.mp taking
        have uncounted := takes counted member
        cases counted <;> simp [Message.isCounted, Message.rescale?]
          at uncounted same
  | holdsBarrier free =>
      refine progress.stay collects ?_ (by simp) false nofun
      rfl
  | handsBarrier held aligned keeps =>
      exact progress.stay collects keeps.phase (by simp) false nofun
  | holdsSuspend =>
      refine progress.stay collects ?_ (by simp) false nofun
      rfl
  | handsSuspend held =>
      refine progress.stay collects ?_ (by simp) false nofun
      rfl
  | copies busy router localBarrier localShutdown clients =>
      exact progress.stay collects (by rw [router]) (by simp) true
        fun _ => ⟨_, _, busy⟩
  | @begins workerSet version taken _ settled busy localBarrier localShutdown
      clients =>
      obtain rfl : message = taken :=
        Option.some.inj (isCurrent taken (.inl (by simp)))
      cases progress with
      | untouched _ fresh => exact .first busy (by simpa using fresh)
      | first again => rw [settled] at again; cases again
      | @past _ earlier later phase split fresh still =>
          cases phase with
          | inl same =>
              rw [settled] at same
              cases same
              have split : handed ++ [.interrogate] =
                  earlier ++ .rescale message :: (later ++ [.interrogate]) := by
                simp [split]
              refine .past (.inr busy) split fresh ?_
              intro key
              simp [still key]
          | inr again => rw [settled] at again; cases again
  | @ends old trigger _ busy settled localBarrier localShutdown clients =>
      obtain rfl : message = trigger :=
        Option.some.inj (isCurrent.trigger busy)
      have phase : after.router.routerPhase =
          .settled message.workers message.version := by
        rw [settled]
        rfl
      cases progress with
      | untouched settled => rw [settled] at busy; cases busy
      | first _ fresh => exact .past (.inl phase) rfl fresh (by simp)
      | @past _ earlier later _ split fresh still =>
          have split : handed ++ [.rescale message] =
              earlier ++ .rescale message :: (later ++ [.rescale message]) := by
            simp [split]
          refine .past (.inl phase) split fresh ?_
          intro key
          simp [still key]

end

/-! ### A whole call -/

theorem Stages.shifts [DecidableEq K] [MaybeTime T]
    {partitioner : WorkerPartitioner K} {thisWorker : WorkerId}
    {motive : Distributor K V T → List (Message K V T) →
      Distributor K V T → List (Message K V T) → Prop}
    (done : ∀ distributor, motive distributor [] distributor [])
    (shift : ∀ {before middle after : Distributor K V T}
      {taken : Option (Message K V T)}
      {output later more : List (Message K V T)},
      Shift thisWorker before taken middle output →
      before.Collects partitioner output →
      motive middle later after more →
      motive before (taken.toList ++ later) after (output ++ more))
    {before after : Distributor K V T} {taken output : List (Message K V T)}
    (stages : Stages partitioner thisWorker before taken after output)
    (consistent : before.router.Consistent partitioner) :
    motive before taken after output ∧ after.router.Consistent partitioner := by
  induction stages with
  | done => exact ⟨done _, consistent⟩
  | stage first rest ih =>
      obtain ⟨one, consistent, collects⟩ := first.shift consistent
      exact ⟨shift one collects (ih consistent).1, (ih consistent).2⟩

section

variable [DecidableEq K] [MaybeTime T] {partitioner : WorkerPartitioner K}
  {thisWorker : WorkerId} {before after : Distributor K V T}
  {taken output : List (Message K V T)}

theorem Stages.counted
    (stages : Stages partitioner thisWorker before taken after output)
    (consistent : before.router.Consistent partitioner)
    {message : Message K V T} (isCounted : message.isCounted = true)
    (member : message ∈ output ∨ message ∈ after.held) :
    message ∈ taken ∨ message ∈ before.held := by
  refine (stages.shifts (motive := fun before taken after output =>
    message ∈ output ∨ message ∈ after.held →
      message ∈ taken ∨ message ∈ before.held) ?_ ?_ consistent).1 member
  · intro distributor member
    simpa using member
  · intro before middle after taken output later more shift _ ih member
    have first := shift.counted isCounted
    simp only [List.mem_append, Option.mem_toList] at member ⊢
    tauto

theorem Stages.barriers
    (stages : Stages partitioner thisWorker before taken after output)
    (consistent : before.router.Consistent partitioner) :
    taken.countP Message.isBarrier + before.localBarrier.toNat =
      output.countP Message.isBarrier + after.localBarrier.toNat := by
  refine (stages.shifts (motive := fun before taken after output =>
    taken.countP Message.isBarrier + before.localBarrier.toNat =
      output.countP Message.isBarrier + after.localBarrier.toNat)
    ?_ ?_ consistent).1
  · intro distributor
    rfl
  · intro before middle after taken output later more shift _ ih
    have first := shift.barriers
    rw [List.countP_append, List.countP_append]
    omega

/-- What a call preserves while every rescale message is the current one. -/
theorem Stages.tracks {current : Option RescaleMessage}
    (stages : Stages partitioner thisWorker before taken after output)
    (consistent : before.router.Consistent partitioner)
    (isCurrent : before.Current current taken) :
    (before.Connected thisWorker → after.Connected thisWorker) ∧
    (before.Belongs thisWorker current → after.Belongs thisWorker current) ∧
    ∀ message, current = some message → ∀ handed reached,
      Progress message handed before reached →
        Progress message (handed ++ output) after
          (reached || taken.any fun taken => taken.rescale?.isSome) := by
  refine (stages.shifts (motive := fun before taken after output =>
    before.Current current taken →
      (before.Connected thisWorker → after.Connected thisWorker) ∧
      (before.Belongs thisWorker current → after.Belongs thisWorker current) ∧
      ∀ message, current = some message → ∀ handed reached,
        Progress message handed before reached →
          Progress message (handed ++ output) after
            (reached || taken.any fun taken => taken.rescale?.isSome))
    ?_ ?_ consistent).1 isCurrent
  · intro distributor _
    refine ⟨id, id, fun message _ handed reached progress => ?_⟩
    simpa using progress
  · intro before middle after taken output later more shift collects ih
      isCurrent
    have one : before.Current current taken.toList := by
      intro message member
      apply isCurrent message
      simp only [List.mem_append]
      tauto
    have rest : middle.Current current later := by
      intro message member
      apply isCurrent message
      have counted : (Message.rescale (K := K) (V := V) (T := T)
          message).isCounted = true := rfl
      have before := shift.counted counted
      simp only [List.mem_append, Option.mem_toList]
      tauto
    obtain ⟨connected, belongs, progress⟩ := ih rest
    refine ⟨connected ∘ shift.connected one, belongs ∘ shift.belongs one, ?_⟩
    rintro message rfl handed reached before
    have middle := shift.progress collects one before
    have after := progress message rfl _ _ middle
    rw [List.append_assoc] at after
    cases taken with
    | none => simpa using after
    | some taken => simpa [Bool.or_assoc] using after

end

end Malstrom.Keyed
