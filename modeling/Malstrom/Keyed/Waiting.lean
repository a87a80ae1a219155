import Mathlib.Algebra.GroupWithZero.Nat
import Mathlib.Algebra.Order.BigOperators.Group.List
import Mathlib.Algebra.Order.Group.Nat
import Malstrom.Keyed.Shift

namespace Malstrom.Keyed

open Data Channels

variable {K V T : Type}

/-! A distributor which holds a barrier waits for the markers of its remotes. -/

/-- A remote announces that nothing more comes before its barrier, or at
all. -/
def NetworkMessage.isMarker : NetworkMessage K V T → Bool
  | .barrierMarker | .suspendMarker => true
  | .data _ | .epoch _ | .acquire _ | .upgrade _ | .ackUpgrade _ => false

/-- The message of a remote which the next call reads is a marker. -/
def marksNext (mail : Mailbox K V T) (remote : WorkerId) : Bool :=
  (mail remote).head?.any NetworkMessage.isMarker

namespace Distributor

theorem known_of_canReceive {distributor : Distributor K V T}
    {remote : WorkerId} (opened : distributor.canReceive remote = true) :
    remote ∈ distributor.remotes.keys := by
  simp only [canReceive] at opened
  split at opened
  next found => exact IndexMap.mem_of_get?_eq_some found
  next => cases opened

theorem canReceive_modify (distributor : Distributor K V T)
    {remote : WorkerId} {change : RemoteState T → RemoteState T}
    (keeps : ∀ state, (change state).isBarred = state.isBarred ∧
      (change state).sentSuspend = state.sentSuspend) (worker : WorkerId) :
    canReceive { distributor with
      remotes := distributor.remotes.modify remote change } worker =
        distributor.canReceive worker := by
  by_cases same : worker = remote
  · subst same
    simp only [canReceive, IndexMap.get?_modify_self]
    cases distributor.remotes.get? worker <;> simp [keeps]
  · simp only [canReceive, IndexMap.get?_modify_of_ne _ _ same]

theorem canReceive_mark (distributor : Distributor K V T)
    {remote : WorkerId} {change : RemoteState T → RemoteState T}
    (marks : ∀ state, (change state).isBarred = true ∨
      (change state).sentSuspend = true)
    (worker : WorkerId) :
    canReceive { distributor with
      remotes := distributor.remotes.modify remote change } worker =
        (distributor.canReceive worker && !decide (remote = worker)) := by
  by_cases same : worker = remote
  · subst same
    simp only [canReceive, IndexMap.get?_modify_self]
    cases distributor.remotes.get? worker with
    | none => simp
    | some state =>
        cases marks state with
        | inl barred => simp [barred]
        | inr suspended => simp [suspended]
  · simp [canReceive, IndexMap.get?_modify_of_ne _ _ same, Ne.symm same]

section

variable [DecidableEq K] [MaybeTime T] {partitioner : WorkerPartitioner K}
  {thisWorker : WorkerId} {before after : Distributor K V T}
  {effects : Effects K V T}

/-- A message leaves its remote open unless it is a marker. -/
theorem receiveRemote_canReceive {remote : WorkerId}
    {message : NetworkMessage K V T}
    (handled : before.receiveRemote remote message partitioner thisWorker =
      .ok (after, effects)) (worker : WorkerId) :
    after.canReceive worker = (before.canReceive worker &&
      !(decide (remote = worker) && message.isMarker)) := by
  cases message with
  | data record =>
      obtain ⟨rfl, -⟩ := handleDataMessage_kept handled
      simp [NetworkMessage.isMarker, canReceive]
  | epoch epoch =>
      obtain ⟨rfl, rfl⟩ := Prod.mk.inj (Except.ok.inj handled)
      dsimp only
      rw [canReceive_modify _ (by intro state; exact ⟨rfl, rfl⟩)]
      simp [NetworkMessage.isMarker]
  | barrierMarker =>
      obtain ⟨rfl, rfl⟩ := Prod.mk.inj (Except.ok.inj handled)
      dsimp only
      rw [canReceive_mark _ (by intro state; exact .inl rfl)]
      simp [NetworkMessage.isMarker]
  | suspendMarker =>
      obtain ⟨rfl, rfl⟩ := Prod.mk.inj (Except.ok.inj handled)
      dsimp only
      rw [canReceive_mark _ (by intro state; exact .inr rfl)]
      simp [NetworkMessage.isMarker]
  | acquire moved =>
      obtain ⟨rfl, rfl⟩ := Prod.mk.inj (Except.ok.inj handled)
      simp [NetworkMessage.isMarker]
  | upgrade version =>
      obtain ⟨rfl, rfl⟩ := Prod.mk.inj (Except.ok.inj handled)
      dsimp only
      rw [canReceive_modify _ (by intro state; exact ⟨rfl, rfl⟩)]
      simp [NetworkMessage.isMarker]
  | ackUpgrade version =>
      obtain ⟨rfl, rfl⟩ := Prod.mk.inj (Except.ok.inj handled)
      dsimp only
      rw [canReceive_modify _ (by intro state; exact ⟨rfl, rfl⟩)]
      simp [NetworkMessage.isMarker]

theorem receiveRemotes_canReceive
    {messages : List (WorkerId × NetworkMessage K V T)}
    (handled : before.receiveRemotes partitioner thisWorker messages =
      .ok (after, effects)) (worker : WorkerId) :
    after.canReceive worker = (before.canReceive worker &&
      messages.all fun addressed =>
        !(decide (addressed.1 = worker) && addressed.2.isMarker)) := by
  induction messages generalizing before effects with
  | nil =>
      obtain ⟨rfl, -⟩ := by simpa [receiveRemotes] using handled
      simp
  | cons addressed rest ih =>
      obtain ⟨remote, message⟩ := addressed
      simp only [receiveRemotes] at handled
      split at handled
      next => simp at handled
      next middle first received =>
        split at handled
        next => simp at handled
        next last later following =>
          obtain ⟨rfl, -⟩ := by simpa using handled
          rw [ih following, receiveRemote_canReceive received worker,
            List.all_cons, Bool.and_assoc]

/-- After its messages were read a remote is open if it was before and its
message was no marker. -/
theorem heard_canReceive {mail : Mailbox K V T}
    (handled : before.receiveRemotes partitioner thisWorker
      (before.remoteMessages mail) = .ok (after, effects))
    (worker : WorkerId) :
    after.canReceive worker =
      (before.canReceive worker && !marksNext mail worker) := by
  rw [receiveRemotes_canReceive handled]
  cases opened : before.canReceive worker with
  | false => rfl
  | true =>
      have known := known_of_canReceive opened
      rw [Bool.eq_iff_iff]
      simp only [Bool.true_and, List.all_eq_true, remoteMessages,
        List.mem_filterMap, List.mem_filter, marksNext]
      constructor
      · intro all
        cases head : (mail worker).head? with
        | none => rfl
        | some message =>
            have one := all (worker, message)
              ⟨worker, ⟨known, opened⟩, by simp [head]⟩
            simpa using one
      · rintro unmarked ⟨remote, message⟩ ⟨found, -, isHead⟩
        cases head : (mail found).head? with
        | none => simp [head] at isHead
        | some first =>
            obtain ⟨rfl, rfl⟩ := by simpa [head] using isHead
            by_cases same : found = worker
            · subst same
              simpa [head] using unmarked
            · simp [same]

end

/-- The condition of `tryEmitBarrier` on the remotes. -/
theorem aligned_iff (distributor : Distributor K V T) :
    (distributor.remotes.values.all fun state =>
      state.isBarred || state.sentSuspend) = true ↔
        ∀ worker, distributor.canReceive worker = false := by
  simp only [List.all_eq_true, canReceive]
  constructor
  · intro all worker
    split
    next state found =>
      have member : state ∈ distributor.remotes.values :=
        List.mem_map.mpr ⟨_, IndexMap.get?_eq_some.mp found, rfl⟩
      have closed := all state member
      cases barred : state.isBarred <;> simp_all
    next => rfl
  · intro none state member
    obtain ⟨⟨worker, found⟩, entry, rfl⟩ := List.mem_map.mp member
    have closed := none worker
    rw [IndexMap.get?_eq_some.mpr entry] at closed
    cases barred : found.isBarred <;> simp_all

end Distributor

/-! ### One call with a barrier -/

namespace Distributor

theorem lifecycle_settled {distributor after : Distributor K V T}
    {partitioner : WorkerPartitioner K} {workerSet : IndexSet WorkerId}
    {version : Version} {clones : Nat} {effects : Effects K V T}
    (settled : distributor.router.routerPhase = .settled workerSet version)
    (cycled : distributor.lifecycle partitioner clones =
      .ok (after, effects)) : after = distributor := by
  have isRouter := RouterPhase.router_of_settled settled
  simp only [lifecycle, isRouter, MessageRouter.lifecycle, Except.ok.injEq,
    Prod.mk.injEq] at cycled
  rw [← cycled.1, ← isRouter]

theorem barrier_stays {distributor after : Distributor K V T}
    {partitioner : WorkerPartitioner K} {workerSet : IndexSet WorkerId}
    {version : Version} {clones : Nat} {effects : Effects K V T}
    (settled : distributor.router.routerPhase = .settled workerSet version)
    (cycled : distributor.tryEmitBarrier.1.tryEmitShutdown.1.lifecycle
      partitioner clones = .ok (after, effects))
    {remote : WorkerId} (opened : distributor.canReceive remote = true) :
    after.localBarrier = distributor.localBarrier ∧
      after.canReceive = distributor.canReceive := by
  have unaligned : ¬(distributor.remotes.values.all fun state =>
      state.isBarred || state.sentSuspend) = true := by
    intro aligned
    rw [(aligned_iff distributor).mp aligned remote] at opened
    cases opened
  have waiting : distributor.tryEmitBarrier = (distributor, {}) := by
    unfold tryEmitBarrier
    rw [if_neg]
    simp [unaligned]
  rw [waiting] at cycled
  have same : distributor.tryEmitShutdown.1.router = distributor.router ∧
      distributor.tryEmitShutdown.1.localBarrier = distributor.localBarrier ∧
      distributor.tryEmitShutdown.1.remotes = distributor.remotes := by
    unfold tryEmitShutdown
    split <;> exact ⟨rfl, rfl, rfl⟩
  obtain rfl := lifecycle_settled (same.1 ▸ settled) cycled
  refine ⟨same.2.1, ?_⟩
  funext worker
  simp only [canReceive, same.2.2]

theorem barrier_leaves {distributor after : Distributor K V T}
    {partitioner : WorkerPartitioner K} {workerSet : IndexSet WorkerId}
    {version : Version} {clones : Nat} {effects : Effects K V T}
    (settled : distributor.router.routerPhase = .settled workerSet version)
    (cycled : distributor.tryEmitBarrier.1.tryEmitShutdown.1.lifecycle
      partitioner clones = .ok (after, effects))
    (closed : ∀ remote, distributor.canReceive remote = false) :
    after.localBarrier = false := by
  have aligned := (aligned_iff distributor).mpr closed
  have free : distributor.tryEmitBarrier.1.localBarrier = false ∧
      distributor.tryEmitBarrier.1.router = distributor.router := by
    unfold tryEmitBarrier
    split
    next => exact ⟨rfl, rfl⟩
    next unaligned =>
      refine ⟨?_, rfl⟩
      cases held : distributor.localBarrier with
      | false => rfl
      | true => exact absurd (by simp [held, aligned]) unaligned
  have same : ∀ before : Distributor K V T,
      before.tryEmitShutdown.1.router = before.router ∧
      before.tryEmitShutdown.1.localBarrier = before.localBarrier := by
    intro before
    unfold tryEmitShutdown
    split <;> exact ⟨rfl, rfl⟩
  obtain ⟨router, localBarrier⟩ := same distributor.tryEmitBarrier.1
  rw [free.2] at router
  obtain rfl := lifecycle_settled (router ▸ settled) cycled
  exact localBarrier.trans free.1

variable [DecidableEq K] [MaybeTime T] [LT T] [DecidableLT T]
  {partitioner : WorkerPartitioner K} {thisWorker : WorkerId}
  {before : Distributor K V T} {input : Input K V T} {mail : Mailbox K V T}
  {clones : Nat} {result : RunResult K V T}

/-- A call in which a barrier is held or taken: it goes downstream if no remote
is open any more, and otherwise stays. -/
theorem run_waits {workerSet : IndexSet WorkerId} {version : Version}
    (settled : before.router.routerPhase = .settled workerSet version)
    (ran : before.run input mail partitioner thisWorker clones = .ok result)
    (waits : before.localBarrier = true ∨ result.taken = some .absBarrier) :
    result.mail = before.leftMail mail ∧
    ((∀ remote, before.canReceive remote = true →
        marksNext mail remote = true) →
      result.distributor.localBarrier = false) ∧
    ∀ remote, before.canReceive remote = true →
      marksNext mail remote = false →
      result.distributor.localBarrier = true ∧
        ∀ worker, result.distributor.canReceive worker =
          (before.canReceive worker && !marksNext mail worker) := by
  obtain ⟨heard, received, fromRemotes, fromLocal, ending, hearing, receiving,
    cycling, isMail, -⟩ := run_eq_ok ran
  have consistent : before.router.Consistent partitioner := by
    rw [RouterPhase.router_of_settled settled]
    trivial
  have keeps := (receiveRemotes_keeps consistent hearing).1
  have opens := heard_canReceive hearing
  -- the local part only sets the barrier
  have held : received.localBarrier = true ∧
      received.router.routerPhase = .settled workerSet version ∧
      received.canReceive = heard.canReceive := by
    rw [← settled, ← keeps.phase]
    simp only [runLocal, keeps.localBarrier] at receiving
    split at receiving
    next pending =>
      simp only [Except.ok.injEq, Prod.mk.injEq] at receiving
      obtain ⟨rfl, -⟩ := receiving
      exact ⟨keeps.localBarrier.trans pending, rfl, rfl⟩
    next free =>
      split at receiving
      next => simp at receiving
      next =>
        simp only [Except.ok.injEq, Prod.mk.injEq] at receiving
        obtain ⟨rfl, -, nothing, -⟩ := receiving
        rw [← nothing] at waits
        simp [free] at waits
      next message next' took =>
        split at receiving
        next => simp at receiving
        next handled effects handling =>
          simp only [Except.ok.injEq, Prod.mk.injEq] at receiving
          obtain ⟨rfl, -, one, -⟩ := receiving
          rw [← one] at waits
          obtain rfl : message = .absBarrier := by simpa [free] using waits
          obtain ⟨rfl, -⟩ := Prod.mk.inj (Except.ok.inj handling)
          exact ⟨rfl, rfl, rfl⟩
  obtain ⟨pending, phase, remotes⟩ := held
  refine ⟨isMail, fun all => ?_, fun remote opened unmarked => ?_⟩
  · apply barrier_leaves phase cycling
    intro remote
    rw [remotes, opens]
    cases opened : before.canReceive remote with
    | false => rfl
    | true => simp [all remote opened]
  · have stillOpen : received.canReceive remote = true := by
      rw [remotes, opens, opened, unmarked]
      rfl
    obtain ⟨localBarrier, same⟩ := barrier_stays phase cycling stillOpen
    refine ⟨localBarrier.trans pending, fun worker => ?_⟩
    rw [same, remotes, opens]

end Distributor

/-! ### Whether the barrier comes to leave -/

/-- A remote which may be read but has sent no marker. -/
def Waits (distributor : Distributor K V T) (mail : Mailbox K V T) : Prop :=
  ∃ remote, distributor.canReceive remote = true ∧
    ∀ message ∈ mail remote, message.isMarker = false

instance (distributor : Distributor K V T) (mail : Mailbox K V T) :
    Decidable (Waits distributor mail) :=
  decidable_of_iff (∃ remote ∈ distributor.remotes.keys,
      distributor.canReceive remote = true ∧
        ∀ message ∈ mail remote, message.isMarker = false) <| by
    constructor
    · rintro ⟨remote, -, waits⟩
      exact ⟨remote, waits⟩
    · rintro ⟨remote, opened, silent⟩
      exact ⟨remote, Distributor.known_of_canReceive opened, opened, silent⟩

/-- The remotes which may be read are among these, and each has sent a
marker. -/
def Resolves (remotes : List WorkerId) (distributor : Distributor K V T)
    (mail : Mailbox K V T) : Prop :=
  ∀ remote, distributor.canReceive remote = true →
    remote ∈ remotes ∧ ∃ message ∈ mail remote, message.isMarker = true

theorem resolves_of_not_waits {distributor : Distributor K V T}
    {mail : Mailbox K V T} (moves : ¬Waits distributor mail) :
    Resolves distributor.remotes.keys distributor mail := by
  intro remote opened
  constructor
  · exact Distributor.known_of_canReceive opened
  · by_contra none
    refine moves ⟨remote, opened, fun message member => ?_⟩
    cases isMarker : message.isMarker with
    | false => rfl
    | true => exact absurd ⟨message, member, isMarker⟩ none

def unread (remotes : List WorkerId) (mail : Mailbox K V T) : Nat :=
  (remotes.map fun remote => (mail remote).length).sum

theorem mem_tail_of_head {mail : Mailbox K V T} {remote : WorkerId}
    (unmarked : marksNext mail remote = false)
    {message : NetworkMessage K V T} (member : message ∈ mail remote)
    (isMarker : message.isMarker = true) : message ∈ (mail remote).tail := by
  unfold marksNext at unmarked
  cases queue : mail remote with
  | nil => simp [queue] at member
  | cons first rest =>
      rw [queue] at member unmarked
      cases List.mem_cons.mp member with
      | inl same => simp [same ▸ isMarker] at unmarked
      | inr later => exact later

section

variable [DecidableEq K] [MaybeTime T] [LT T] [DecidableLT T]
  {partitioner : WorkerPartitioner K} {thisWorker : WorkerId}
  {before : Distributor K V T} {input : Input K V T} {mail : Mailbox K V T}
  {clones : Nat} {result : RunResult K V T} {workerSet : IndexSet WorkerId}
  {version : Version}

/-- A call which leaves a barrier has read a message in front of a marker. -/
theorem run_resolves
    (settled : before.router.routerPhase = .settled workerSet version)
    (ran : before.run input mail partitioner thisWorker clones = .ok result)
    (waits : before.localBarrier = true ∨ result.taken = some .absBarrier)
    {remotes : List WorkerId} (resolves : Resolves remotes before mail)
    (stays : result.distributor.localBarrier = true) :
    Resolves remotes result.distributor result.mail ∧
      unread remotes result.mail < unread remotes mail := by
  obtain ⟨isMail, leaves, keeps⟩ := Distributor.run_waits settled ran waits
  obtain ⟨open', opened, unmarked⟩ : ∃ remote,
      before.canReceive remote = true ∧ marksNext mail remote = false := by
    by_contra none
    rw [leaves] at stays
    · cases stays
    · intro remote opened
      cases marked : marksNext mail remote with
      | true => rfl
      | false => exact absurd ⟨remote, opened, marked⟩ none
  have opens := (keeps open' opened unmarked).2
  constructor
  · intro remote still
    rw [opens, Bool.and_eq_true, Bool.not_eq_true'] at still
    obtain ⟨listed, message, member, isMarker⟩ := resolves remote still.1
    refine ⟨listed, message, ?_, isMarker⟩
    rw [isMail]
    simp only [Distributor.leftMail, still.1, if_true]
    exact mem_tail_of_head still.2 member isMarker
  · obtain ⟨listed, message, member, -⟩ := resolves open' opened
    rw [isMail]
    apply List.sum_lt_sum
    · intro remote _
      simp only [Distributor.leftMail]
      split
      next => simp
      next => exact le_rfl
    · refine ⟨open', listed, ?_⟩
      have positive := List.length_pos_of_mem member
      simp only [Distributor.leftMail, opened, if_true, List.length_tail]
      omega

/-- A call does not bring on a remote without a marker. -/
theorem run_stuck
    (settled : before.router.routerPhase = .settled workerSet version)
    (ran : before.run input mail partitioner thisWorker clones = .ok result)
    (waits : before.localBarrier = true ∨ result.taken = some .absBarrier)
    (stuck : Waits before mail) :
    result.distributor.localBarrier = true ∧
      Waits result.distributor result.mail := by
  obtain ⟨isMail, -, keeps⟩ := Distributor.run_waits settled ran waits
  obtain ⟨remote, opened, silent⟩ := stuck
  have unmarked : marksNext mail remote = false := by
    unfold marksNext
    cases queue : mail remote with
    | nil => rfl
    | cons first rest => exact silent first (by simp [queue])
  obtain ⟨stays, opens⟩ := keeps remote opened unmarked
  refine ⟨stays, remote, by simp [opens, opened, unmarked], ?_⟩
  intro message member
  rw [isMail] at member
  simp only [Distributor.leftMail, opened, if_true] at member
  exact silent message (List.mem_of_mem_tail member)

end

/-! ### A settled distributor does not panic -/

def Selects (partitioner : WorkerPartitioner K) : Prop :=
  ∀ key (workers : IndexSet WorkerId), workers ≠ IndexSet.empty →
    partitioner key workers ∈ workers

namespace Distributor

section

variable [DecidableEq K] {partitioner : WorkerPartitioner K}
  {thisWorker : WorkerId} {distributor : Distributor K V T}
  {workerSet : IndexSet WorkerId} {version : Version}

theorem handleDataMessage_ok (selects : Selects partitioner)
    (settled : distributor.router.routerPhase = .settled workerSet version)
    (connected : distributor.Connected thisWorker)
    (member : thisWorker ∈ workerSet) (message : DataMessage K V T)
    (messageVersion : Option Version) (sender : WorkerId) :
    ∃ result, distributor.handleDataMessage message messageVersion partitioner
      thisWorker sender = .ok result := by
  have nonempty : workerSet ≠ IndexSet.empty := by
    rintro rfl
    exact IndexSet.not_mem_empty _ member
  have routes : ∃ target,
      distributor.router.routeMessage message messageVersion partitioner
        thisWorker sender distributor.remotes =
          (distributor.router, some (message, target)) ∧
      (target = thisWorker ∨ target ∈ workerSet) := by
    rw [RouterPhase.router_of_settled settled]
    simp only [MessageRouter.routeMessage, NormalRouter.routeMessage]
    split
    next => exact ⟨_, rfl, .inl rfl⟩
    next => exact ⟨_, rfl, .inr (selects message.key workerSet nonempty)⟩
  obtain ⟨target, routed, isTarget⟩ := routes
  simp only [handleDataMessage, routed]
  by_cases here : target = thisWorker
  · simp only [sendDataMessage, if_pos here]
    exact ⟨_, rfl⟩
  · have known : target ∈ distributor.remotes := by
      rw [connected, settled]
      exact ⟨isTarget.resolve_left here, here⟩
    obtain ⟨state, found⟩ := IndexMap.exists_get?_of_mem known
    simp only [sendDataMessage, if_neg here, found]
    exact ⟨_, rfl⟩

/-- What a settled distributor takes but a rescale message. -/
theorem receiveLocal_ok [MaybeTime T] (selects : Selects partitioner)
    (settled : distributor.router.routerPhase = .settled workerSet version)
    (connected : distributor.Connected thisWorker)
    (member : thisWorker ∈ workerSet) (message : Message K V T) :
    ∃ result, distributor.receiveLocal message partitioner thisWorker =
      .ok result := by
  cases message with
  | data record =>
      exact handleDataMessage_ok selects settled connected member record none
        thisWorker
  | epoch | absBarrier | rescale | suspendMarker | interrogate | collect
  | acquire => exact ⟨_, rfl⟩

theorem receiveRemote_ok [MaybeTime T] (selects : Selects partitioner)
    (settled : distributor.router.routerPhase = .settled workerSet version)
    (connected : distributor.Connected thisWorker)
    (member : thisWorker ∈ workerSet) (remote : WorkerId)
    (message : NetworkMessage K V T) :
    ∃ result, distributor.receiveRemote remote message partitioner thisWorker =
      .ok result := by
  cases message with
  | data record =>
      exact handleDataMessage_ok selects settled connected member
        record.content (some record.version) remote
  | epoch | barrierMarker | suspendMarker | acquire | upgrade | ackUpgrade =>
      exact ⟨_, rfl⟩

omit [DecidableEq K] in
theorem Connected.of_keeps {before after : Distributor K V T}
    (connected : before.Connected thisWorker) (keeps : before.Keeps after) :
    after.Connected thisWorker := by
  intro worker
  rw [keeps.clients, keeps.phase]
  exact connected worker

theorem receiveRemotes_ok [MaybeTime T] (selects : Selects partitioner)
    (settled : distributor.router.routerPhase = .settled workerSet version)
    (connected : distributor.Connected thisWorker)
    (member : thisWorker ∈ workerSet)
    (messages : List (WorkerId × NetworkMessage K V T)) :
    ∃ result, distributor.receiveRemotes partitioner thisWorker messages =
      .ok result := by
  induction messages generalizing distributor with
  | nil => exact ⟨_, rfl⟩
  | cons addressed rest ih =>
      obtain ⟨remote, message⟩ := addressed
      obtain ⟨⟨middle, first⟩, received⟩ :=
        receiveRemote_ok selects settled connected member remote message
      have consistent : distributor.router.Consistent partitioner := by
        rw [RouterPhase.router_of_settled settled]
        trivial
      have keeps := (receiveRemote_keeps consistent received).1
      obtain ⟨result, following⟩ :=
        ih (keeps.phase.trans settled) (connected.of_keeps keeps)
      simp only [receiveRemotes, received, following]
      exact ⟨_, rfl⟩

variable [MaybeTime T] [LT T] [DecidableLT T]

/-- A call panics neither on a remote message nor on one of the local upstream
which is no rescale. -/
theorem run_ok {input : Input K V T} (selects : Selects partitioner)
    (settled : distributor.router.routerPhase = .settled workerSet version)
    (connected : distributor.Connected thisWorker)
    (member : thisWorker ∈ workerSet)
    (receives : ∃ taken next, input.recv = .ok (taken, next) ∧
      taken.bind Message.rescale? = none)
    (mail : Mailbox K V T) (clones : Nat) :
    ∃ result, distributor.run input mail partitioner thisWorker clones =
      .ok result := by
  obtain ⟨⟨heard, fromRemotes⟩, hearing⟩ := receiveRemotes_ok selects settled
    connected member (distributor.remoteMessages mail)
  have consistent : distributor.router.Consistent partitioner := by
    rw [RouterPhase.router_of_settled settled]
    trivial
  obtain ⟨keeps, stays⟩ := receiveRemotes_keeps consistent hearing
  have phase := keeps.phase.trans settled
  have runsLocal : ∃ received next taken effects,
      heard.runLocal input partitioner thisWorker =
        .ok (received, next, taken, effects) ∧
      received.router.routerPhase = .settled workerSet version := by
    obtain ⟨taken, next, recv, noRescale⟩ := receives
    simp only [runLocal, recv]
    split
    next => exact ⟨_, _, _, _, rfl, phase⟩
    next free =>
      cases taken with
      | none => exact ⟨_, _, _, _, rfl, phase⟩
      | some message =>
          obtain ⟨⟨received, effects⟩, handling⟩ := receiveLocal_ok selects
            phase (connected.of_keeps keeps) member message
          simp only [handling]
          refine ⟨_, _, _, _, rfl, ?_⟩
          have shift := (receiveLocal_shift stays (by simpa using free)
            handling).1
          generalize effects.output = output at shift
          cases shift with
          | keeps keeps takes hands => exact keeps.phase.trans phase
          | holdsBarrier free => exact phase
          | holdsSuspend => exact phase
          | copies busy router localBarrier localShutdown clients =>
              cases noRescale
          | begins settled busy localBarrier localShutdown clients =>
              cases noRescale
  obtain ⟨received, next, taken, fromLocal, receiving, phase⟩ := runsLocal
  have routers : received.tryEmitBarrier.1.tryEmitShutdown.1.router =
      received.router := by
    simp only [tryEmitShutdown, tryEmitBarrier]
    split <;> split <;> rfl
  have cycles : ∃ result,
      received.tryEmitBarrier.1.tryEmitShutdown.1.lifecycle partitioner
        clones = .ok result := by
    simp only [lifecycle, routers, RouterPhase.router_of_settled phase,
      MessageRouter.lifecycle]
    exact ⟨_, rfl⟩
  obtain ⟨⟨last, ending⟩, cycling⟩ := cycles
  simp only [run, hearing, receiving, cycling]
  exact ⟨_, rfl⟩

end

end Distributor

end Malstrom.Keyed
