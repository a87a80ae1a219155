import Mathlib.Algebra.Order.BigOperators.Group.List
import Mathlib.Algebra.Order.Group.Nat
import Malstrom.Data.Loop
import Malstrom.Keyed.Partitioners
import Malstrom.Keyed.Waiting
import Malstrom.Stream.Reconfiguration
import Malstrom.Stream.Snapshot

namespace Malstrom.Stream

open Data Channels Keyed Operators

variable {K V T S E : Type}

/-! One pass of a worker over its operators, and when it does not end. -/

namespace Worker

variable [DecidableEq K] [MaybeTime T] [LT T] [DecidableLT T]

def call (graph : Graph K V T S E) (workerId : WorkerId)
    (calls : Nat → Nat → Call E) (operator count : Nat)
    (worker : Worker K V T S E) : Except RunPanic (Worker K V T S E) :=
  worker.act graph workerId (.step operator (calls operator count))

def turn (graph : Graph K V T S E) (workerId : WorkerId)
    (calls : Nat → Nat → Call E) (bound : Nat) (worker : Worker K V T S E)
    (operator : Nat) : Option (Except RunPanic (Worker K V T S E)) :=
  if (worker.operators operator).isSuspended then some (.ok worker)
  else
    match worker.call graph workerId calls operator 0 with
    | .error panic => some (.error panic)
    | .ok next =>
        loop (fun state => (state.operators operator).hasQueuedWork)
          (call graph workerId calls operator) bound 1 next

def turns (graph : Graph K V T S E) (workerId : WorkerId)
    (calls : Nat → Nat → Call E) (bound : Nat) :
    List Nat → Worker K V T S E →
      Option (Except RunPanic (Worker K V T S E))
  | [], worker => some (.ok worker)
  | operator :: rest, worker =>
      match worker.turn graph workerId calls bound operator with
      | none => none
      | some (.error panic) => some (.error panic)
      | some (.ok next) => turns graph workerId calls bound rest next

/-- The operators are called from the last one to the first one; `none` when a
loop has not ended after `bound` tests. -/
def step (graph : Graph K V T S E) (workerId : WorkerId)
    (calls : Nat → Nat → Call E) (bound : Nat) (worker : Worker K V T S E) :
    Option (Except RunPanic (Worker K V T S E)) :=
  worker.turns graph workerId calls bound (List.range graph.size).reverse

end Worker

/-! ### An operator which waits -/

/-- Every channel starts with a barrier, and behind one of them is a message
which can be received. -/
def followed (input : Input K V T) : Bool :=
  (input.receivers.all fun upstream =>
    peekApply Message.isBarrier upstream.receiver) &&
  input.receivers.any fun upstream => canRecvUnaligned upstream.receiver.tail

/-- A distributor holds a barrier in front of a message which can be received,
or takes it in its next call, and a remote has not sent its own one. -/
def StandardOperator.Blocked (operator : StandardOperator K V T S E) : Prop :=
  match operator.body with
  | .logic _ _ => False
  | .distributor _ running => Waits running operator.mail ∧
      (if running.localBarrier then operator.hasQueuedWork
        else followed operator.input) = true

instance (operator : StandardOperator K V T S E) :
    Decidable operator.Blocked :=
  match body : operator.body with
  | .logic _ _ => isFalse (by simp [StandardOperator.Blocked, body])
  | .distributor _ running =>
      decidable_of_iff (Waits running operator.mail ∧
        (if running.localBarrier then operator.hasQueuedWork
          else followed operator.input) = true)
        (by simp [StandardOperator.Blocked, body])

def queued (input : Input K V T) : Nat :=
  ((List.range input.receivers.length).map fun channel =>
    (input.queue channel).length).sum

theorem canProgress_iff {input : Input K V T} :
    input.canProgress = true ↔ input.next? ≠ none := by
  rw [Ne, Input.next?_eq_none]
  simp [Input.canProgress, Input.Stalled]

theorem canProgress_takeMarkers (input : Input K V T) :
    input.takeMarkers.2.canProgress =
      input.receivers.any fun upstream =>
        canRecvUnaligned upstream.receiver.tail := by
  simp only [Input.takeMarkers, Input.canProgress, List.any_map]
  rfl

section

variable [MaybeTime T] [LT T] [DecidableLT T]

theorem recv_progress {input next : Input K V T}
    {taken : Option (Message K V T)} (progress : input.canProgress = true)
    (received : input.recv = .ok (taken, next)) :
    queued next < queued input ∧
      ∀ message, taken = some message → message.isMarker = false := by
  have served := canProgress_iff.mp progress
  cases (Input.recv_received received).takes with
  | @one channel message rest _ _ _ linked head queues same unmarked returns =>
      constructor
      · unfold queued
        rw [same]
        apply List.sum_lt_sum
        · intro other _
          rw [queues, Function.update_apply]
          split
          next isChannel => simp [isChannel, head]
          next => exact le_rfl
        · exact ⟨channel, List.mem_range.mpr linked, by simp [queues, head]⟩
      · rintro found rfl
        exact unmarked_of_plain unmarked returns found (by simp)
  | idle nothing waiting => exact absurd nothing served
  | every nothing => exact absurd nothing served

theorem recv_mem {input next : Input K V T} {message : Message K V T}
    (received : input.recv = .ok (some message, next))
    (noEpoch : message.epoch? = none) :
    ∃ upstream ∈ input.receivers, message ∈ upstream.receiver := by
  generalize isTaken : some message = taken at received
  cases Input.recv_received received with
  | @passed channel first rest served linked head =>
      obtain rfl := Option.some.inj isTaken
      refine ⟨_, List.getElem_mem linked, ?_⟩
      have queue : input.receivers[channel].receiver = message :: rest := by
        simpa [Input.queue, linked] using head
      simp [queue]
  | epoch served linked head =>
      simp only [Input.recvEpoch] at isTaken
      obtain ⟨merged, -, rfl⟩ := Option.map_eq_some_iff.mp isTaken.symm
      cases noEpoch
  | idle stalled waiting => cases isTaken
  | aligned stalled linked isMarker heads =>
      obtain rfl := Option.some.inj isTaken
      obtain ⟨upstream, isLinked⟩ := List.exists_mem_of_ne_nil _ linked
      obtain ⟨rest, head⟩ := heads upstream isLinked
      exact ⟨upstream, isLinked, by simp [head]⟩

theorem recv_followed {input : Input K V T}
    (isFollowed : followed input = true) :
    ∃ next, input.recv = .ok (some .absBarrier, next) ∧
      next.canProgress = true := by
  simp only [followed, Bool.and_eq_true] at isFollowed
  obtain ⟨barred, behind⟩ := isFollowed
  have heads : ∀ upstream ∈ input.receivers,
      ∃ rest, upstream.receiver = .absBarrier :: rest :=
    fun upstream member =>
      peekApply_isBarrier (List.all_eq_true.mp barred upstream member)
  have linked : input.receivers ≠ [] := by
    rintro unlinked
    simp [unlinked] at behind
  have stalled : input.next? = none := by
    rw [Input.next?_eq_none]
    intro upstream member
    obtain ⟨rest, head⟩ := heads upstream member
    simp [head, canRecvUnaligned, Message.isMarker]
  have full : ¬(input.receivers.any fun upstream =>
      upstream.receiver.isEmpty) = true := by
    rw [List.any_eq_true]
    rintro ⟨upstream, member, empty⟩
    obtain ⟨rest, head⟩ := heads upstream member
    simp [head] at empty
  refine ⟨input.takeMarkers.2, ?_, ?_⟩
  · rw [← Input.takeMarkers_eq linked heads]
    simp only [Input.recv, stalled, Input.recvMarker, if_neg full, barred,
      List.isEmpty_iff, if_neg linked, if_true]
  · rw [canProgress_takeMarkers]
    exact behind

theorem followed_of_recv {input next : Input K V T}
    (received : input.recv = .ok (some .absBarrier, next))
    (progress : next.canProgress = true) : followed input = true := by
  generalize isBarrier : some Message.absBarrier = taken at received
  cases Input.recv_received received with
  | passed served linked head unmarked =>
      obtain rfl := Option.some.inj isBarrier
      cases unmarked
  | epoch served linked head =>
      simp only [Input.recvEpoch] at isBarrier
      obtain ⟨merged, -, same⟩ := Option.map_eq_some_iff.mp isBarrier.symm
      cases same
  | idle stalled waiting => cases isBarrier
  | aligned stalled linked isMarker heads =>
      obtain rfl := Option.some.inj isBarrier
      rw [canProgress_takeMarkers] at progress
      simp only [followed, progress, Bool.and_true, List.all_eq_true]
      intro upstream member
      obtain ⟨rest, head⟩ := heads upstream member
      simp [head, peekApply, Message.isBarrier]

end

/-! ### One call -/

section

variable [DecidableEq K] [MaybeTime T] [LT T] [DecidableLT T]

/-- Settled before a barrier: the distributor has no rescale to work on when it
holds or takes a barrier. -/
def StandardOperator.Settled (operator : StandardOperator K V T S E) : Prop :=
  ∀ partitioner running, operator.body = .distributor partitioner running →
    running.localBarrier = true ∨ followed operator.input = true →
    ∃ workerSet version,
      running.router.routerPhase = .settled workerSet version

/-- A held barrier is on its way to leave. -/
def StandardOperator.Leaves (remotes : List WorkerId)
    (operator : StandardOperator K V T S E) : Prop :=
  ∀ partitioner running, operator.body = .distributor partitioner running →
    running.localBarrier = true → Resolves remotes running operator.mail

def StandardOperator.left (remotes : List WorkerId)
    (operator : StandardOperator K V T S E) : Nat :=
  queued operator.input +
    if operator.body.pending then 1 + unread remotes operator.mail else 0

variable {operator : StandardOperator K V T S E} {thisWorker : WorkerId}
  {call : Call E} {stepped : Stepped K V T S E}

namespace StandardOperator

theorem Blocked.step (blocked : operator.Blocked) (settled : operator.Settled)
    (consistent : operator.body.Consistent)
    (ran : operator.step thisWorker call = .ok stepped) :
    stepped.operator.Blocked ∧ stepped.operator.body.pending = true ∧
      stepped.operator.hasQueuedWork = true := by
  have received := (step_ran consistent ran).2
  cases body : operator.body with
  | logic running state => simp [Blocked, body] at blocked
  | distributor partitioner running =>
      simp only [Blocked, body] at blocked
      obtain ⟨waits, work⟩ := blocked
      obtain ⟨result, runs, after, -, mail, taken, -⟩ :=
        step_distributed body ran
      have both : (running.localBarrier = true ∨
          result.taken = some .absBarrier) ∧
          stepped.operator.hasQueuedWork = true ∧
          ∃ workerSet version,
            running.router.routerPhase = .settled workerSet version := by
        rw [body] at received
        cases pending : running.localBarrier with
        | true =>
            simp only [Body.pending, pending, if_true] at received work
            refine ⟨.inl rfl, ?_, settled _ _ body (.inl pending)⟩
            simpa only [hasQueuedWork, received.2] using work
        | false =>
            simp only [Body.pending, pending, Bool.false_eq_true, if_false]
              at received work
            obtain ⟨next, isBarrier, progress⟩ := recv_followed work
            obtain ⟨same, isNext⟩ :=
              Prod.mk.inj (Except.ok.inj (isBarrier.symm.trans received))
            refine ⟨.inr (taken.symm.trans same.symm), ?_,
              settled _ _ body (.inr work)⟩
            simpa only [hasQueuedWork, ← isNext] using progress
      obtain ⟨barrier, more, workerSet, version, phase⟩ := both
      obtain ⟨stays, still⟩ := run_stuck phase runs barrier waits
      have pending : stepped.operator.body.pending = true := by
        rw [after]
        exact stays
      refine ⟨?_, pending, more⟩
      simp only [Blocked, after, mail, stays, if_true]
      exact ⟨still, more⟩

theorem pending_of_step (consistent : operator.body.Consistent)
    (ran : operator.step thisWorker call = .ok stepped)
    (pending : stepped.operator.body.pending = true) :
    operator.body.pending = true ∨ stepped.taken = some .absBarrier := by
  have body := (step_ran consistent ran).1
  cases isBody : operator.body with
  | logic logic state =>
      rw [isBody] at body
      rw [body.of_logic.1] at pending
      cases pending
  | distributor partitioner running =>
      rw [isBody] at body consistent
      obtain ⟨later, after, stages, -⟩ := body.of_distributor
      rw [after] at pending
      have counts := stages.barriers consistent
      have isPending : later.localBarrier = true := pending
      rw [isPending] at counts
      cases before : running.localBarrier with
      | true => exact .inl before
      | false =>
          right
          cases taken : stepped.taken with
          | none => simp [taken, before] at counts
          | some message =>
              cases message <;>
                simp [taken, before, Message.isBarrier] at counts ⊢

/-- Each call of the loop brings an operator nearer to its end. -/
theorem Leaves.step {remotes : List WorkerId}
    (leaves : operator.Leaves remotes) (settled : operator.Settled)
    (consistent : operator.body.Consistent)
    (ran : operator.step thisWorker call = .ok stepped)
    (work : operator.hasQueuedWork = true) :
    stepped.operator.Leaves remotes ∧
      stepped.operator.left remotes < operator.left remotes := by
  have received := (step_ran consistent ran).2
  have before := pending_of_step consistent ran
  cases pending : operator.body.pending with
  | false =>
      rw [pending, if_neg Bool.false_ne_true] at received
      obtain ⟨fewer, unmarked⟩ := recv_progress work received
      have free : stepped.operator.body.pending = false := by
        cases after : stepped.operator.body.pending with
        | false => rfl
        | true =>
            cases before after with
            | inl held => rw [pending] at held; cases held
            | inr taken => exact unmarked _ taken
      constructor
      · intro partitioner running body held
        simp [body, Body.pending, held] at free
      · simpa [left, pending, free] using fewer
  | true =>
      rw [pending, if_pos rfl] at received
      cases body : operator.body with
      | logic logic state => simp [body, Body.pending] at pending
      | distributor partitioner running =>
          have held : running.localBarrier = true := by
            simpa [body, Body.pending] using pending
          obtain ⟨workerSet, version, phase⟩ := settled _ _ body (.inl held)
          obtain ⟨result, runs, after, -, mail, -⟩ := step_distributed body ran
          have resolves := run_resolves phase runs (.inl held)
            (leaves _ _ body held)
          constructor
          · intro partitioner' running' body' held'
            obtain ⟨rfl, rfl⟩ := Body.distributor.inj (after.symm.trans body')
            rw [mail]
            exact (resolves held').1
          · simp only [left, received.2, after, body, Body.pending, held, mail,
              if_true]
            split
            next stays => have := (resolves stays).2; omega
            next => omega

/-- An operator which has work after its first call is on its way to the end,
unless it was blocked. -/
theorem leaves_of_not_blocked (free : ¬operator.Blocked)
    (settled : operator.Settled) (consistent : operator.body.Consistent)
    (ran : operator.step thisWorker call = .ok stepped)
    (work : stepped.operator.hasQueuedWork = true) :
    ∃ remotes, stepped.operator.Leaves remotes := by
  have received := (step_ran consistent ran).2
  cases body : operator.body with
  | logic logic state =>
      refine ⟨[], fun partitioner running after _ => ?_⟩
      have ranBody := (step_ran consistent ran).1
      rw [body] at ranBody
      rw [ranBody.of_logic.1] at after
      cases after
  | distributor partitioner running =>
      obtain ⟨result, runs, after, -, mail, taken, -⟩ :=
        step_distributed body ran
      refine ⟨running.remotes.keys, fun partitioner' running' body' held => ?_⟩
      obtain ⟨rfl, rfl⟩ := Body.distributor.inj (after.symm.trans body')
      have pending : stepped.operator.body.pending = true := by
        rw [after]
        exact held
      have barrier : running.localBarrier = true ∨
          result.taken = some .absBarrier := by
        have before := pending_of_step consistent ran pending
        simpa only [body, Body.pending, taken] using before
      -- it would have been blocked if a remote had not sent its marker
      have both : (if running.localBarrier then operator.hasQueuedWork
          else followed operator.input) = true := by
        rw [body] at received
        cases pending : running.localBarrier with
        | true =>
            simp only [Body.pending, pending, if_true] at received ⊢
            simpa only [hasQueuedWork, received.2] using work
        | false =>
            simp only [Body.pending, pending, Bool.false_eq_true, if_false]
              at received ⊢
            have isBarrier := barrier.resolve_left (by simp [pending])
            rw [taken, isBarrier] at received
            exact followed_of_recv received work
      have moves : ¬Waits running operator.mail := by
        intro waits
        apply free
        simp only [Blocked, body]
        exact ⟨waits, both⟩
      obtain ⟨workerSet, version, phase⟩ : ∃ workerSet version,
          running.router.routerPhase = .settled workerSet version := by
        apply settled _ _ body
        cases pending : running.localBarrier with
        | true => exact .inl rfl
        | false =>
            rw [pending] at both
            exact .inr both
      rw [mail]
      exact (run_resolves phase runs barrier
        (resolves_of_not_waits moves) held).1

end StandardOperator

end

/-! ### Every reachable state -/

structure Worker.Ready (graph : Graph K V T S E) (workerId : WorkerId)
    (worker : Worker K V T S E) : Prop where
  distinct : ∀ one < graph.size, ∀ other < graph.size,
    graph.operatorId one = graph.operatorId other → one = other
  sound : worker.Sound graph
  adapts : worker.Adapts graph workerId
  kept : worker.Kept graph

namespace Worker

variable {graph : Graph K V T S E} {worker next : Worker K V T S E}
  {workerId : WorkerId}

section

variable [DecidableEq K] [MaybeTime T] [LT T] [DecidableLT T]

theorem Ready.act (ready : worker.Ready graph workerId)
    {event : Event K V T S E} (allowed : worker.allowed graph workerId event)
    (stepped : worker.act graph workerId event = .ok next) :
    next.Ready graph workerId where
  distinct := ready.distinct
  sound := ready.sound.step allowed stepped
  adapts := ready.adapts.step ready.sound allowed stepped
  kept := ready.kept.step ready.sound ready.distinct allowed stepped

theorem Ready.reaches {context : BuildContext} {start : Worker K V T S E}
    (built : graph.execute context = .ok start)
    (run : Reaches (Worker.act graph context.workerId)
      (Worker.allowed graph context.workerId) start worker) :
    worker.Ready graph context.workerId := by
  refine run.invariant (Worker.Ready graph context.workerId) ?_ ?_
  · exact ⟨fun one oneIn other otherIn => graph.execute_distinct built oneIn
      otherIn, .execute built, .execute built, .execute built⟩
  · intro state event next _ ready permitted stepped
    exact ready.act permitted stepped

end

variable {operator : Nat}

/-- A queued marker is that of the current procedure. -/
theorem Ready.queued_marker (ready : worker.Ready graph workerId)
    (inGraph : operator < graph.size) {upstream : UpstreamState K V T}
    (linked : upstream ∈ (worker.operators operator).input.receivers)
    {message : Message K V T} (counted : message.isCounted = true)
    (queued : message ∈ upstream.receiver) :
    ∃ procedure, worker.procedure = some procedure ∧
      message = procedure.message := by
  obtain ⟨channels, -, -, split, -⟩ := ready.sound.wired operator inGraph
  obtain ⟨channel, inRange, rfl⟩ := List.mem_iff_getElem.mp linked
  apply ready.sound.exclusive.sent ready.sound.linked inGraph
    (channels ▸ inRange) counted
  rw [split channel, List.mem_append]
  refine .inr ?_
  simpa [Input.queue, inRange] using queued

theorem Ready.snapshot_of_barrier (ready : worker.Ready graph workerId)
    (inGraph : operator < graph.size)
    {partitioner : WorkerPartitioner K} {running : Distributor K V T}
    (body : (worker.operators operator).body =
      .distributor partitioner running)
    (barrier : running.localBarrier = true ∨
      followed (worker.operators operator).input = true) :
    worker.procedure = some .snapshot := by
  have isProcedure : ∃ procedure, worker.procedure = some procedure ∧
      (Message.absBarrier : Message K V T) = procedure.message := by
    cases barrier with
    | inl held =>
        refine ready.sound.exclusive operator inGraph _ rfl (.inr ?_)
        rw [body]
        exact Distributor.mem_held.mpr (.inl ⟨rfl, held⟩)
    | inr isFollowed =>
        simp only [followed, Bool.and_eq_true, List.all_eq_true] at isFollowed
        obtain ⟨upstream, linked, -⟩ := List.any_eq_true.mp isFollowed.2
        obtain ⟨rest, head⟩ := peekApply_isBarrier (isFollowed.1 _ linked)
        exact ready.queued_marker inGraph linked rfl (by simp [head])
  obtain ⟨procedure, isCurrent, same⟩ := isProcedure
  cases procedure with
  | snapshot => exact isCurrent
  | reconfig message => cases same
  | suspend => cases same

theorem Ready.snapshot_of_blocked (ready : worker.Ready graph workerId)
    (inGraph : operator < graph.size)
    (blocked : (worker.operators operator).Blocked) :
    worker.procedure = some .snapshot := by
  cases body : (worker.operators operator).body with
  | logic logic state => simp [StandardOperator.Blocked, body] at blocked
  | distributor partitioner running =>
      apply ready.snapshot_of_barrier inGraph body
      simp only [StandardOperator.Blocked, body] at blocked
      cases held : running.localBarrier with
      | true => exact .inl rfl
      | false => exact .inr (by simpa [held] using blocked.2)

/-- During a snapshot no distributor works on a rescale. -/
theorem Ready.settled_of_snapshot (ready : worker.Ready graph workerId)
    (isSnapshot : worker.procedure = some .snapshot)
    (inGraph : operator < graph.size)
    {partitioner : WorkerPartitioner K} {running : Distributor K V T}
    (body : (worker.operators operator).body =
      .distributor partitioner running) :
    ∃ workerSet version,
      running.router.routerPhase = .settled workerSet version ∧
        workerId ∈ workerSet := by
  have adapts := ready.adapts operator inGraph
  rw [body] at adapts
  cases phase : running.router.routerPhase with
  | settled workerSet version =>
      refine ⟨workerSet, version, rfl, ?_⟩
      cases adapts.belongs workerSet version phase with
      | inl member => exact member
      | inr new =>
          obtain ⟨message, isCurrent, -⟩ := new
          simp [current, isSnapshot, Procedure.rescale?] at isCurrent
  | busy old trigger =>
      have held : .rescale trigger ∈
          (worker.operators operator).body.held := by
        rw [body]
        refine Distributor.mem_held.mpr (.inr (.inr ?_))
        simp [phase, RouterPhase.held]
      obtain ⟨procedure, isCurrent, same⟩ :=
        ready.sound.exclusive operator inGraph _ rfl (.inr held)
      obtain rfl := Option.some.inj (isSnapshot.symm.trans isCurrent)
      cases same

theorem Ready.settled (ready : worker.Ready graph workerId)
    (inGraph : operator < graph.size) :
    (worker.operators operator).Settled := by
  intro partitioner running body barrier
  have isSnapshot := ready.snapshot_of_barrier inGraph body barrier
  obtain ⟨workerSet, version, phase, -⟩ :=
    ready.settled_of_snapshot isSnapshot inGraph body
  exact ⟨workerSet, version, phase⟩

theorem Ready.consistent (ready : worker.Ready graph workerId)
    (inGraph : operator < graph.size) :
    (worker.operators operator).body.Consistent :=
  (ready.sound.wired operator inGraph).consistent

section

variable [DecidableEq K] [MaybeTime T] [LT T] [DecidableLT T]

omit [DecidableEq K] in
theorem Ready.recv_ok (ready : worker.Ready graph workerId)
    (inGraph : operator < graph.size) :
    ∃ taken next, (worker.operators operator).input.recv =
      .ok (taken, next) := by
  cases received : (worker.operators operator).input.recv with
  | ok result => exact ⟨result.1, result.2, rfl⟩
  | error panic =>
      obtain ⟨barred, isLinked, suspended, isLinked', ⟨rest, head⟩, rest',
        head'⟩ := Input.recv_panics received
      obtain ⟨procedure, isCurrent, same⟩ := ready.queued_marker inGraph
        isLinked (show Message.isCounted .absBarrier = true from rfl)
        (by simp [head])
      obtain ⟨procedure', isCurrent', same'⟩ := ready.queued_marker inGraph
        isLinked' (show Message.isCounted .suspendMarker = true from rfl)
        (by simp [head'])
      obtain rfl := Option.some.inj (isCurrent.symm.trans isCurrent')
      cases same.trans same'.symm

theorem Ready.step_ok (ready : worker.Ready graph workerId)
    (selects : ∀ operator < graph.size, ∀ partitioner,
      graph.kind operator = .distribute partitioner → Selects partitioner)
    (isSnapshot : worker.procedure = some .snapshot)
    (inGraph : operator < graph.size) (call : Call E) :
    ∃ stepped, (worker.operators operator).step workerId call =
      .ok stepped := by
  obtain ⟨taken, next, received⟩ := ready.recv_ok inGraph
  cases body : (worker.operators operator).body with
  | logic logic state =>
      simp only [StandardOperator.step, body, Logic.step, received]
      cases taken with
      | none => exact ⟨_, rfl⟩
      | some message => exact ⟨_, rfl⟩
  | distributor partitioner running =>
      have isKind : graph.kind operator = .distribute partitioner := by
        have states := (ready.kept operator inGraph).states
        cases kind : graph.kind operator with
        | logic logic initial =>
            rw [kind] at states
            obtain ⟨state, -, isLogic, -⟩ := states
            cases body.symm.trans isLogic
        | distribute built =>
            rw [kind] at states
            obtain ⟨⟨distributor, isBuilt⟩, -⟩ := states
            obtain ⟨rfl, rfl⟩ :=
              Body.distributor.inj (body.symm.trans isBuilt)
            rfl
      have noRescale : taken.bind Message.rescale? = none := by
        cases rescale : taken.bind Message.rescale? with
        | none => rfl
        | some message =>
            obtain ⟨found, rfl, isRescale⟩ := Option.bind_eq_some_iff.mp rescale
            obtain rfl : found = .rescale message := by
              cases found <;> simp_all [Message.rescale?]
            obtain ⟨upstream, linked, queued⟩ := recv_mem received rfl
            obtain ⟨procedure, isCurrent, same⟩ :=
              ready.queued_marker inGraph linked rfl queued
            obtain rfl := Option.some.inj (isSnapshot.symm.trans isCurrent)
            cases same
      obtain ⟨workerSet, version, phase, member⟩ :=
        ready.settled_of_snapshot isSnapshot inGraph body
      have adapts := ready.adapts operator inGraph
      rw [body] at adapts
      obtain ⟨result, running⟩ := Distributor.run_ok
        (selects operator inGraph partitioner isKind) phase adapts.connected
        member ⟨taken, next, received, noRescale⟩
        (worker.operators operator).mail call.clones
      simp only [StandardOperator.step, body, running]
      exact ⟨_, rfl⟩

omit [DecidableEq K] [MaybeTime T] [LT T] [DecidableLT T] in
/-- Nothing an operator sends comes to itself or to an earlier one. -/
theorem routed_earlier {operator other : Nat} (inGraph : operator < graph.size)
    (notLater : other ≤ operator) (messages : List (Message K V T)) :
    graph.routed (some operator) messages other = fun _ => [] := by
  funext channel
  unfold Graph.routed
  split
  next isSource =>
    obtain ⟨inRange, isOperator⟩ := List.getElem?_eq_some_iff.mp isSource
    have earlier := graph.earlier other (by omega) operator
      (isOperator ▸ List.getElem_mem inRange)
    omega
  next => rfl

omit [DecidableEq K] [MaybeTime T] [LT T] [DecidableLT T] in
@[simp] theorem sendAll_nothing (input : Input K V T) :
    sendAll input (fun _ => []) = input := by
  unfold sendAll
  have same : (input.receivers.mapIdx fun _ upstream =>
      { upstream with receiver := upstream.receiver ++ [] }) =
        input.receivers := by
    apply List.ext_getElem <;> simp
  rw [same]

theorem act_step (inGraph : operator < graph.size) {call : Call E}
    (stepped : worker.act graph workerId (.step operator call) = .ok next) :
    (∃ result, (worker.operators operator).step workerId call = .ok result ∧
      next.operators operator = result.operator) ∧
    next.procedure = worker.procedure ∧
    ∀ other < operator, next.operators other = worker.operators other := by
  simp only [act] at stepped
  split at stepped
  next => simp at stepped
  next result ran =>
    obtain rfl := Except.ok.inj stepped
    refine ⟨⟨result, ran, ?_⟩, rfl, fun other less => ?_⟩
    · simp [hand, install, routed_earlier inGraph le_rfl]
    · have different : other ≠ operator := by omega
      simp [hand, install, routed_earlier inGraph less.le, different]

end

end Worker

/-! ### One pass -/

namespace Worker

variable [DecidableEq K] [MaybeTime T] [LT T] [DecidableLT T]
  {graph : Graph K V T S E} {worker next : Worker K V T S E}
  {workerId : WorkerId} {calls : Nat → Nat → Call E} {operator : Nat}

theorem Ready.called (ready : worker.Ready graph workerId)
    (inGraph : operator < graph.size) {count : Nat}
    (called : worker.call graph workerId calls operator count = .ok next) :
    next.Ready graph workerId :=
  ready.act
    (show worker.allowed graph workerId (.step operator _) from inGraph) called

theorem Ready.turn_ends (ready : worker.Ready graph workerId)
    (calls : Nat → Nat → Call E) (inGraph : operator < graph.size)
    (free : (worker.operators operator).isSuspended = false →
      ¬(worker.operators operator).Blocked) :
    ∃ bound, (worker.turn graph workerId calls bound operator).isSome := by
  unfold turn
  cases suspended : (worker.operators operator).isSuspended with
  | true => exact ⟨0, rfl⟩
  | false =>
      cases first : worker.call graph workerId calls operator 0 with
      | error panic => exact ⟨0, by simp⟩
      | ok next =>
          obtain ⟨⟨result, ran, after⟩, -, -⟩ := act_step inGraph first
          have consistent := ready.consistent inGraph
          have settled := ready.settled inGraph
          have ready := ready.called inGraph first
          simp only [Bool.false_eq_true, if_false]
          cases work : (next.operators operator).hasQueuedWork with
          | false => exact ⟨1, by simp [loop, work]⟩
          | true =>
              have leaves := StandardOperator.leaves_of_not_blocked
                (free suspended) settled consistent ran (after ▸ work)
              obtain ⟨remotes, leaves⟩ := leaves
              refine loop_ends (fun state => state.Ready graph workerId ∧
                  (state.operators operator).Leaves remotes)
                (fun state => (state.operators operator).left remotes) ?_
                ⟨ready, after ▸ leaves⟩ 1
              rintro count state later ⟨ready, leaves⟩ work called
              obtain ⟨⟨result, ran, after⟩, -, -⟩ := act_step inGraph called
              obtain ⟨leaves, fewer⟩ := leaves.step (ready.settled inGraph)
                (ready.consistent inGraph) ran work
              rw [after]
              exact ⟨⟨ready.called inGraph called, leaves⟩, fewer⟩

theorem Ready.call_ok (ready : worker.Ready graph workerId)
    (selects : ∀ operator < graph.size, ∀ partitioner,
      graph.kind operator = .distribute partitioner → Selects partitioner)
    (isSnapshot : worker.procedure = some .snapshot)
    (inGraph : operator < graph.size) (calls : Nat → Nat → Call E)
    (count : Nat) :
    ∃ next, worker.call graph workerId calls operator count = .ok next ∧
      next.Ready graph workerId ∧ next.procedure = some .snapshot := by
  obtain ⟨stepped, ran⟩ := ready.step_ok selects isSnapshot inGraph
    (calls operator count)
  have acted : ∃ next, worker.call graph workerId calls operator count =
      .ok next := by
    simp only [call, Worker.act, ran]
    exact ⟨_, rfl⟩
  obtain ⟨next, acted⟩ := acted
  obtain ⟨-, procedure, -⟩ := act_step inGraph acted
  exact ⟨next, acted, ready.called inGraph acted, procedure.trans isSnapshot⟩

theorem Ready.turn_never (ready : worker.Ready graph workerId)
    (selects : ∀ operator < graph.size, ∀ partitioner,
      graph.kind operator = .distribute partitioner → Selects partitioner)
    (inGraph : operator < graph.size)
    (runs : (worker.operators operator).isSuspended = false)
    (blocked : (worker.operators operator).Blocked) (bound : Nat) :
    worker.turn graph workerId calls bound operator = none := by
  have called : ∀ (count : Nat) (state : Worker K V T S E),
      state.Ready graph workerId ∧ (state.operators operator).Blocked →
      ∃ next, state.call graph workerId calls operator count = .ok next ∧
        (next.Ready graph workerId ∧ (next.operators operator).Blocked) ∧
        (next.operators operator).hasQueuedWork = true := by
    rintro count state ⟨ready, blocked⟩
    obtain ⟨next, acted, ready', -⟩ := ready.call_ok selects
      (ready.snapshot_of_blocked inGraph blocked) inGraph calls count
    obtain ⟨⟨result, ran, after⟩, -, -⟩ := act_step inGraph acted
    obtain ⟨blocked, -, work⟩ := blocked.step (ready.settled inGraph)
      (ready.consistent inGraph) ran
    rw [← after] at blocked work
    exact ⟨next, acted, ⟨ready', blocked⟩, work⟩
  obtain ⟨next, first, holds, work⟩ := called 0 worker ⟨ready, blocked⟩
  simp only [turn, runs, first, Bool.false_eq_true, if_false]
  refine loop_never (fun state => (state.Ready graph workerId ∧
    (state.operators operator).Blocked) ∧
    (state.operators operator).hasQueuedWork = true) ?_ ⟨holds, work⟩ bound 1
  rintro count state ⟨holds, work⟩
  exact ⟨work, called count state holds⟩

theorem Ready.turn_safe (ready : worker.Ready graph workerId)
    (selects : ∀ operator < graph.size, ∀ partitioner,
      graph.kind operator = .distribute partitioner → Selects partitioner)
    (isSnapshot : worker.procedure = some .snapshot)
    (inGraph : operator < graph.size) {bound : Nat} {panic : RunPanic} :
    worker.turn graph workerId calls bound operator ≠
      some (.error panic) := by
  obtain ⟨next, first, ready', isSnapshot'⟩ :=
    ready.call_ok selects isSnapshot inGraph calls 0
  simp only [turn, first]
  split
  next => simp
  next =>
    refine loop_safe (fun state => state.Ready graph workerId ∧
      state.procedure = some .snapshot) ?_ ⟨ready', isSnapshot'⟩
    rintro count state ⟨ready, isSnapshot⟩
    exact ready.call_ok selects isSnapshot inGraph calls count

theorem turn_mono {bound larger : Nat} (enough : bound ≤ larger)
    {result : Except RunPanic (Worker K V T S E)}
    (ends : worker.turn graph workerId calls bound operator = some result) :
    worker.turn graph workerId calls larger operator = some result := by
  unfold turn at ends ⊢
  split at ends
  next suspended => rw [if_pos suspended]; exact ends
  next runs =>
    rw [if_neg runs]
    split at ends
    next panic first => simpa [first] using ends
    next next first => exact loop_mono enough ends

theorem turns_mono {bound larger : Nat} (enough : bound ≤ larger)
    {operators : List Nat} {result : Except RunPanic (Worker K V T S E)}
    (ends : worker.turns graph workerId calls bound operators = some result) :
    worker.turns graph workerId calls larger operators = some result := by
  induction operators generalizing worker with
  | nil => exact ends
  | cons operator rest ih =>
      simp only [turns] at ends ⊢
      split at ends
      next => cases ends
      next panic first => rw [turn_mono enough first]; exact ends
      next next first => rw [turn_mono enough first]; exact ih ends

theorem Ready.turn_ok (ready : worker.Ready graph workerId)
    (inGraph : operator < graph.size) {bound : Nat}
    (ends : worker.turn graph workerId calls bound operator =
      some (.ok next)) :
    next.Ready graph workerId ∧ next.procedure = worker.procedure ∧
      ∀ other < operator, next.operators other = worker.operators other := by
  have called : ∀ (count : Nat) (state later : Worker K V T S E),
      (state.Ready graph workerId ∧ state.procedure = worker.procedure ∧
        ∀ other < operator, state.operators other = worker.operators other) →
      state.call graph workerId calls operator count = .ok later →
      later.Ready graph workerId ∧ later.procedure = worker.procedure ∧
        ∀ other < operator, later.operators other = worker.operators other := by
    rintro count state later ⟨ready, procedure, same⟩ acted
    obtain ⟨-, isProcedure, others⟩ := act_step inGraph acted
    exact ⟨ready.called inGraph acted, isProcedure.trans procedure,
      fun other less => (others other less).trans (same other less)⟩
  unfold turn at ends
  split at ends
  next =>
    obtain rfl := by simpa using ends
    exact ⟨ready, rfl, fun _ _ => rfl⟩
  next =>
    split at ends
    next => simp at ends
    next first acted =>
      exact loop_invariant _ called
        (called 0 worker first ⟨ready, rfl, fun _ _ => rfl⟩ acted) ends

theorem Ready.turns_end_iff
    (selects : ∀ operator < graph.size, ∀ partitioner,
      graph.kind operator = .distribute partitioner → Selects partitioner)
    (ready : worker.Ready graph workerId) {operators : Nat}
    (inGraph : operators ≤ graph.size) :
    (∃ bound, (worker.turns graph workerId calls bound
      (List.range operators).reverse).isSome) ↔
    ∀ operator < operators,
      (worker.operators operator).isSuspended = false →
        ¬(worker.operators operator).Blocked := by
  induction operators generalizing worker with
  | zero =>
      refine ⟨fun _ operator less => absurd less (Nat.not_lt_zero _), ?_⟩
      exact fun _ => ⟨0, rfl⟩
  | succ last ih =>
      rw [List.range_succ, List.reverse_append, List.reverse_singleton,
        List.singleton_append]
      have inRest : last ≤ graph.size := by omega
      constructor
      · rintro ⟨bound, ends⟩ operator less runs blocked
        have isSnapshot := ready.snapshot_of_blocked (by omega) blocked
        simp only [turns] at ends
        split at ends
        next => cases ends
        next panic failed =>
          exact ready.turn_safe selects isSnapshot (by omega) failed
        next next turned =>
          obtain ⟨ready', -, same⟩ := ready.turn_ok (by omega) turned
          have isLast : operator ≠ last := by
            rintro rfl
            rw [ready.turn_never selects (by omega) runs blocked] at turned
            cases turned
          have earlier : operator < last := by omega
          rw [← same operator earlier] at runs blocked
          exact (ih ready' inRest).mp ⟨bound, ends⟩ operator earlier runs
            blocked
      · intro free
        obtain ⟨bound, ends⟩ := ready.turn_ends calls
          (show last < graph.size by omega) (free last (by omega))
        obtain ⟨result, turned⟩ := Option.isSome_iff_exists.mp ends
        cases result with
        | error panic => exact ⟨bound, by simp [turns, turned]⟩
        | ok next =>
            obtain ⟨ready', -, same⟩ := ready.turn_ok (by omega) turned
            have rest : ∀ operator < last,
                (next.operators operator).isSuspended = false →
                  ¬(next.operators operator).Blocked := by
              intro operator less
              rw [same operator less]
              exact free operator (by omega)
            obtain ⟨bound', ends'⟩ := (ih ready' inRest).mpr rest
            obtain ⟨result, ended⟩ := Option.isSome_iff_exists.mp ends'
            refine ⟨max bound bound', ?_⟩
            simp only [turns, turn_mono (le_max_left _ _) turned,
              turns_mono (le_max_right _ _) ended, Option.isSome_some]

end Worker

/-- With what a worker has received so far one pass over its operators ends,
or panics, if and only if none of them which is not suspended holds a barrier,
or is about to take it, in front of a message which can be received while a
remote which may be read has not sent a marker. -/
theorem scheduling_ends_iff [DecidableEq K] [MaybeTime T] [LT T]
    [DecidableLT T] {graph : Graph K V T S E} {context : BuildContext}
    (selects : ∀ operator < graph.size, ∀ partitioner,
      graph.kind operator = .distribute partitioner → Selects partitioner)
    {start worker : Worker K V T S E} (built : graph.execute context = .ok start)
    (run : Reaches (Worker.act graph context.workerId)
      (Worker.allowed graph context.workerId) start worker)
    (calls : Nat → Nat → Call E) :
    (∃ bound,
      (worker.step graph context.workerId calls bound).isSome) ↔
    ∀ operator < graph.size,
      (worker.operators operator).isSuspended = false →
        ¬(worker.operators operator).Blocked :=
  (Worker.Ready.reaches built run).turns_end_iff selects le_rfl

/-! A source sends a record in every call.  Behind the barrier its distributor
has the next one, and nothing has come from the other worker. -/

def ticks : LogicWrapper Nat Nat Nat (List Nat) Unit where
  onSchedule _ state := (state, [⟨0, 0, 0⟩], none)
  onData _ state := (state, [])
  onEpoch _ state := (state, [], none)
  onBarrier _ := []
  onRescale _ state := state
  onSuspend state := state
  onCollect _ state := state
  onAcquire moved state := (state, moved)

def distributed : Graph Nat Nat Nat (List Nat) Unit where
  size := 2
  name operator := toString operator
  operatorId operator := operator
  kind
    | 0 => .logic ticks.intoLogic []
    | _ => .distribute indexSelect
  upstream
    | 0 => [none]
    | _ + 1 => [some 0]
  carries _ _ _ := true
  linked := by decide
  earlier := by
    intro operator inGraph source member
    match operator with
    | 0 => simp at member
    | more + 1 => simp at member; omega
  forwards := by
    intro operator inGraph source member
    match operator with
    | 0 => simp at member
    | more + 1 => simp at member; subst member; rfl

def distributedStart : Worker Nat Nat Nat (List Nat) Unit where
  operators := distributed.intoRunnable ofTwo
  procedure := none
  persisted := []
  logs operator := Log.start (distributed.intoRunnable ofTwo operator)

/-- Two passes over the operators after the command. -/
def stalledTrace : List (Worker.Event Nat Nat Nat (List Nat) Unit) :=
  [.command .snapshot, schedule 1, schedule 0, schedule 1, schedule 0]

@[irreducible] def stalledWorker : Worker Nat Nat Nat (List Nat) Unit :=
  replay (Worker.act distributed 0) distributedStart stalledTrace

@[irreducible] def alignedWorker : Worker Nat Nat Nat (List Nat) Unit :=
  replay (Worker.act distributed 0) distributedStart
    (stalledTrace ++ [.deliver 1 1 .barrierMarker])

theorem distributed_selects : ∀ operator < distributed.size,
    ∀ partitioner, distributed.kind operator = .distribute partitioner →
      Selects partitioner := by
  intro operator inGraph partitioner isKind
  match operator with
  | 0 => cases isKind
  | 1 =>
      obtain rfl := Kind.distribute.inj isKind
      intro key workers nonempty
      apply indexSelect_mem
      intro unlisted
      apply nonempty
      cases workers
      simpa [IndexSet.empty] using unlisted

/-- A reachable worker of a running snapshot whose next pass never ends. -/
theorem stalledWorker_loops :
    distributed.execute ofTwo = .ok distributedStart ∧
    Reaches (Worker.act distributed ofTwo.workerId)
      (Worker.allowed distributed ofTwo.workerId) distributedStart
      stalledWorker ∧
    ∀ calls bound,
      stalledWorker.step distributed ofTwo.workerId calls bound = none := by
  have built : distributed.execute ofTwo = .ok distributedStart := rfl
  have run : Reaches (Worker.act distributed ofTwo.workerId)
      (Worker.allowed distributed ofTwo.workerId) distributedStart
      stalledWorker := by
    unfold stalledWorker
    exact Follows.reaches stalledTrace .refl (by decide +kernel)
  refine ⟨built, run, fun calls bound => ?_⟩
  have blocked : (stalledWorker.operators 1).isSuspended = false ∧
      (stalledWorker.operators 1).Blocked := by
    decide +kernel
  by_contra ends
  have ends := Option.isSome_iff_ne_none.mpr ends
  exact ((Worker.Ready.reaches built run).turns_end_iff distributed_selects
    le_rfl).mp ⟨bound, ends⟩ 1 (by decide) blocked.1 blocked.2

/-- With the marker of the other worker the same pass ends. -/
theorem alignedWorker_ends : ∃ bound,
    (alignedWorker.step distributed ofTwo.workerId
      (fun _ _ => ⟨(), 0⟩) bound).isSome := by
  have built : distributed.execute ofTwo = .ok distributedStart := rfl
  have run : Reaches (Worker.act distributed ofTwo.workerId)
      (Worker.allowed distributed ofTwo.workerId) distributedStart
      alignedWorker := by
    unfold alignedWorker
    exact Follows.reaches _ .refl (by decide +kernel)
  refine (scheduling_ends_iff distributed_selects built run _).mpr ?_
  decide +kernel

end Malstrom.Stream
