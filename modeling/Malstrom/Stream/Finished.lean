import Malstrom.Keyed.Final
import Malstrom.Stream.Execution

namespace Malstrom.Stream

open Data Channels Keyed Operators MaybeTime

variable {K V T S E : Type}

/-! What a worker knows when all its operators are finished. -/

namespace Output

def Observed (output : Output K V T) : Prop :=
  ∀ epoch, output.frontier = some epoch → .epoch epoch ∈ output.sent

variable [LT T] [DecidableLT T]

theorem sent_sendAll (output : Output K V T) (messages : List (Message K V T)) :
    (messages.foldl send output).sent = output.sent ++ messages := by
  induction messages generalizing output with
  | nil => simp
  | cons message rest ih => simp [ih, send]

theorem Observed.send {output : Output K V T} (observed : output.Observed)
    (message : Message K V T) : (output.send message).Observed := by
  intro epoch isFrontier
  have earlier (same : output.frontier = some epoch) :
      .epoch epoch ∈ output.sent ++ [message] :=
    List.mem_append_left _ (observed epoch same)
  cases message with
  | epoch sent =>
      simp only [Output.send] at isFrontier
      split at isFrontier
      next =>
        obtain rfl := Option.some.inj isFrontier
        exact List.mem_append_right _ (.head _)
      next => exact earlier isFrontier
  | _ => exact earlier isFrontier

theorem Observed.sendAll {output : Output K V T} (observed : output.Observed)
    (messages : List (Message K V T)) :
    (messages.foldl Output.send output).Observed := by
  induction messages generalizing output with
  | nil => exact observed
  | cons message rest ih => exact ih (observed.send message)

end Output

theorem eq_of_checkFinished [DecidableEq T] {last : T} {frontier : Option T}
    (finished : checkFinished (some last) frontier = true) :
    frontier = some last := by
  simpa [checkFinished] using finished

theorem informed_sendAll {last : T} {input : Input K V T}
    {received : Nat → List (Message K V T)} {taken : List (Message K V T)}
    (informed : input.Informed last received taken)
    (messages : Nat → List (Message K V T)) :
    (Stream.sendAll input messages).Informed last received taken where
  epochs channel upstream found isLast := by
    simp only [Stream.sendAll, List.getElem?_mapIdx, Option.map_eq_some_iff]
      at found
    obtain ⟨before, isBefore, rfl⟩ := found
    exact informed.epochs channel before isBefore isLast
  frontier isLast channel linked := by
    rw [length_sendAll] at linked
    exact informed.frontier isLast channel linked
  taken member channel linked := by
    rw [length_sendAll] at linked
    exact informed.taken member channel linked

theorem StandardOperator.step_posts [DecidableEq K] [MaybeTime T] [LT T]
    [DecidableLT T] {operator : StandardOperator K V T S E}
    {thisWorker : WorkerId} {call : Call E} {stepped : Stepped K V T S E}
    {partitioner : WorkerPartitioner K} {running : Distributor K V T}
    (body : operator.body = .distributor partitioner running)
    (ran : operator.step thisWorker call = .ok stepped) :
    ∃ result, running.run operator.input operator.mail partitioner thisWorker
        call.clones = .ok result ∧
      stepped.operator.body = .distributor partitioner result.distributor ∧
      stepped.taken = result.taken ∧ stepped.output = result.effects.output ∧
      operator.posts thisWorker call = result.effects.network := by
  obtain ⟨result, runs, after, -, -, taken, output, -⟩ :=
    step_distributed body ran
  exact ⟨result, runs, after, taken, output, by simp only [posts, body, runs]⟩

theorem StandardOperator.mail_step [DecidableEq K] [MaybeTime T] [LT T]
    [DecidableLT T] {operator : StandardOperator K V T S E}
    {thisWorker : WorkerId} {call : Call E} {stepped : Stepped K V T S E}
    (ran : operator.step thisWorker call = .ok stepped) (remote : WorkerId) :
    Links.addressedTo remote operator.reads ++ stepped.operator.mail remote =
      operator.mail remote := by
  cases body : operator.body with
  | logic logic state =>
      have same : stepped.operator.mail = operator.mail := by
        simp only [step, body, Logic.step] at ran
        split at ran
        next => cases ran
        next =>
          obtain rfl := Except.ok.inj ran
          rfl
        next =>
          obtain rfl := Except.ok.inj ran
          rfl
      simp [reads, body, same]
  | distributor partitioner running =>
      obtain ⟨result, runs, -, -, same, -⟩ := step_distributed body ran
      obtain ⟨-, -, -, -, -, -, -, -, mail, -⟩ := Distributor.run_eq_ok runs
      simp only [reads, body, addressedTo_remoteMessages, same, mail]
      exact reads_append_leftMail running operator.mail remote

/-! ### One worker -/

namespace Running

/-- Every channel has got what was sent to it. -/
def Fed (graph : Graph K V T S E) (running : Running K V T S E) : Prop :=
  ∀ operator < graph.size, ∀ channel source,
    (graph.upstream operator)[channel]? = some source →
      (running.histories operator).received channel ++
          (running.operators operator).input.queue channel =
        (running.outputs source).sent.filter (graph.carried operator channel)

def Observed (running : Running K V T S E) : Prop :=
  ∀ source, (running.outputs source).Observed

def Informed (dataflow : Dataflow K V T S E) (running : Running K V T S E) :
    Prop :=
  ∀ operator < dataflow.size, ∀ last,
    dataflow.inputMax operator = some last →
      (running.operators operator).input.Informed last
        (running.histories operator).received
        (running.histories operator).taken

/-- An operator has sent the last time and got it on every channel. -/
def Finished (dataflow : Dataflow K V T S E) (running : Running K V T S E)
    (operator : Nat) : Prop :=
  (∀ last, dataflow.outputMax operator = some last →
    .epoch last ∈ (running.outputs (some operator)).sent) ∧
  ∀ last, dataflow.inputMax operator = some last →
    ∀ channel < (dataflow.upstream operator).length,
      .epoch last ∈ (running.histories operator).received channel

/-- The operators behind the one at hand are finished if the pass may still
return true. -/
def Visited (dataflow : Dataflow K V T S E) (running : Running K V T S E) :
    Prop :=
  running.pass.allDone = true → ∀ operator < dataflow.size,
    running.pass.remaining ≤ operator →
      (running.operators operator).isSuspended = true ∨
        running.Finished dataflow operator

structure Kept (dataflow : Dataflow K V T S E) (running : Running K V T S E) :
    Prop where
  sound : running.toWorker.Sound dataflow.toGraph
  unscaled : ∀ message, running.procedure ≠ some (.reconfig message)
  root : ∀ message ∈ (running.outputs none).sent, message.isData = false
  within : running.pass.remaining ≤ dataflow.size
  observed : running.Observed
  fed : running.Fed dataflow.toGraph
  informed : running.Informed dataflow
  visited : running.Visited dataflow

section

variable {running : Running K V T S E}

theorem input_receive (operator other : Nat) (remote : WorkerId)
    (message : NetworkMessage K V T) :
    ((running.receive operator remote message).operators other).input =
      (running.operators other).input := by
  simp only [Running.receive, Function.update_apply]
  split
  next same => rw [same]
  next => rfl

theorem isSuspended_receive (operator other : Nat) (remote : WorkerId)
    (message : NetworkMessage K V T) :
    ((running.receive operator remote message).operators other).isSuspended =
      (running.operators other).isSuspended := by
  simp only [Running.receive, Function.update_apply]
  split
  next same => rw [same]
  next => rfl

theorem remaining_of_due {operator : Nat} (due : running.due = some operator) :
    running.pass.remaining = operator + 1 := by
  simp only [Running.due] at due
  split at due
  next => cases due
  next current isRemaining =>
    have same : current = operator := by
      split at due
      next =>
        split at due
        next => exact Option.some.inj due
        next => cases due
      next =>
        split at due
        next => cases due
        next => exact Option.some.inj due
    rw [isRemaining, same]

end

section

variable [LT T] [DecidableLT T] {dataflow : Dataflow K V T S E}
  {graph : Graph K V T S E} {running : Running K V T S E}

theorem sent_emit (source other : Option Nat)
    (messages : List (Message K V T)) :
    ((running.emit graph source messages).outputs other).sent =
      (running.outputs other).sent ++
        if other = source then messages else [] := by
  simp only [emit, Function.update_apply]
  split
  next same => rw [Output.sent_sendAll, same]
  next => simp

theorem Fed.emit (fed : running.Fed graph)
    (channels : ∀ operator < graph.size,
      (running.operators operator).input.receivers.length =
        (graph.upstream operator).length)
    (source : Option Nat) (messages : List (Message K V T)) :
    (running.emit graph source messages).Fed graph := by
  intro operator inGraph channel other isSource
  have queue : ((running.emit graph source messages).operators
        operator).input.queue channel =
      (running.operators operator).input.queue channel ++
        graph.routed source messages operator channel := by
    apply queue_sendAll
    rw [channels operator inGraph]
    exact Graph.routed_unlinked
  rw [queue, sent_emit, List.filter_append, ← List.append_assoc]
  have before := fed operator inGraph channel other isSource
  have routed : graph.routed source messages operator channel =
      (if other = source then messages else []).filter
        (graph.carried operator channel) := by
    simp only [Graph.routed, isSource, Option.some.injEq]
    split <;> rfl
  rw [routed]
  exact congrArg (· ++ _) before

theorem Informed.emit (informed : running.Informed dataflow)
    (source : Option Nat) (messages : List (Message K V T)) :
    (running.emit dataflow.toGraph source messages).Informed dataflow :=
  fun operator inGraph last isMax =>
    informed_sendAll (informed operator inGraph last isMax) _

theorem Finished.emit {operator : Nat}
    (finished : running.Finished dataflow operator) (source : Option Nat)
    (messages : List (Message K V T)) :
    (running.emit graph source messages).Finished dataflow operator := by
  refine ⟨fun last isMax => ?_, finished.2⟩
  rw [sent_emit]
  exact List.mem_append_left _ (finished.1 last isMax)

theorem Visited.emit (visited : running.Visited dataflow)
    (source : Option Nat) (messages : List (Message K V T)) :
    (running.emit graph source messages).Visited dataflow :=
  fun done operator inGraph passed =>
    (visited done operator inGraph passed).imp_right
      fun finished => finished.emit source messages

theorem Observed.emit (observed : running.Observed) (source : Option Nat)
    (messages : List (Message K V T)) :
    (running.emit graph source messages).Observed := by
  intro other
  simp only [Running.emit, Function.update_apply]
  split
  next => exact (observed source).sendAll messages
  next => exact observed other

end

section

variable [DecidableEq K] [MaybeTime T] [LT T] [DecidableLT T]
  {dataflow : Dataflow K V T S E} {running : Running K V T S E}

theorem Kept.begin (kept : running.Kept dataflow) {workerId : WorkerId}
    {procedure : Procedure}
    (allowed : running.toWorker.allowed dataflow.toGraph workerId
      (.command procedure))
    (scaleless : procedure = .snapshot ∨ procedure = .suspend) :
    (running.begin dataflow.toGraph procedure).Kept dataflow where
  sound := kept.sound.step allowed rfl
  unscaled message isReconfig := by
    obtain rfl := Option.some.inj isReconfig
    simp at scaleless
  root message member := by
    rw [Running.begin, sent_emit, if_pos rfl] at member
    rcases List.mem_append.mp member with earlier | now
    · exact kept.root message earlier
    · rw [List.mem_singleton.mp now]
      cases procedure <;> rfl
  within := kept.within
  observed := by
    apply Observed.emit
    exact kept.observed
  fed := by
    refine Fed.emit ?_ (fun operator inGraph => ?_) _ _
    · exact kept.fed
    · exact (kept.sound.wired operator inGraph).channels
  informed := by
    apply Informed.emit
    exact kept.informed
  visited := by
    apply Visited.emit
    exact kept.visited

theorem Kept.receive (kept : running.Kept dataflow) (operator : Nat)
    (remote : WorkerId) (message : NetworkMessage K V T) :
    (running.receive operator remote message).Kept dataflow := by
  have allowed : running.toWorker.allowed dataflow.toGraph remote
      (.deliver operator remote message) := trivial
  constructor
  case sound => exact kept.sound.step allowed rfl
  case unscaled => exact kept.unscaled
  case root => exact kept.root
  case within => exact kept.within
  case observed => exact kept.observed
  case fed =>
    intro other otherIn channel source isSource
    rw [input_receive]
    exact kept.fed other otherIn channel source isSource
  case informed =>
    intro other otherIn last isMax
    rw [input_receive]
    exact kept.informed other otherIn last isMax
  case visited =>
    intro done other otherIn passed
    rw [isSuspended_receive]
    exact kept.visited done other otherIn passed

variable {workerId : WorkerId} {operator : Nat} {call : Call E}
  {stepped : Stepped K V T S E}

omit [DecidableEq K] [MaybeTime T] [LT T] [DecidableLT T] in
theorem Kept.lt_of_due (kept : running.Kept dataflow)
    (due : running.due = some operator) : operator < dataflow.size := by
  have remaining := remaining_of_due due
  have within := kept.within
  omega

theorem Fed.install {graph : Graph K V T S E} (fed : running.Fed graph)
    (consistent : (running.operators operator).body.Consistent)
    (ran : (running.operators operator).step workerId call = .ok stepped) :
    (running.install graph workerId operator call stepped).Fed graph := by
  intro other otherIn channel source isSource
  have before := fed other otherIn channel source isSource
  have queues := (StandardOperator.step_served consistent ran).2.2 channel
  rcases eq_or_ne other operator with rfl | different
  · rw [queues, ← List.append_assoc] at before
    simpa [Running.install, Worker.install, Stepped.turn] using before
  · simpa [Running.install, Worker.install, different] using before

theorem Informed.install
    (merges : ∀ operator < dataflow.size, ∀ last,
      dataflow.inputMax operator = some last → MergesLast last)
    (informed : running.Informed dataflow)
    (consistent : (running.operators operator).body.Consistent)
    (ran : (running.operators operator).step workerId call = .ok stepped) :
    (running.install dataflow.toGraph workerId operator call
      stepped).Informed dataflow := by
  intro other otherIn last isMax
  have before := informed other otherIn last isMax
  rcases eq_or_ne other operator with rfl | different
  · simp only [Running.install, Worker.install, Function.update_self]
    have received := (StandardOperator.step_ran consistent ran).2
    split at received
    next =>
      obtain ⟨nothing, same⟩ := received
      simpa [nothing, same, Input.left] using before
    next => exact before.recv (merges other otherIn last isMax) received
  · simpa [Running.install, Worker.install, different] using before

theorem Finished.install {other : Nat}
    (finished : running.Finished dataflow other) :
    (running.install dataflow.toGraph workerId operator call
      stepped).Finished dataflow other := by
  refine ⟨finished.1, fun last isMax channel linked => ?_⟩
  have before := finished.2 last isMax channel linked
  rcases eq_or_ne other operator with rfl | different
  · simp only [Running.install, Function.update_self]
    exact List.mem_append_left _ before
  · simpa [Running.install, different] using before

theorem Visited.install (visited : running.Visited dataflow)
    (due : running.due = some operator) :
    (running.install dataflow.toGraph workerId operator call
      stepped).Visited dataflow := by
  intro done other otherIn passed
  have remaining := remaining_of_due due
  have different : other ≠ operator := by
    have passed : running.pass.remaining ≤ other := passed
    omega
  refine (visited done other otherIn passed).imp (fun suspended => ?_)
    fun finished => finished.install
  simpa [Running.install, Worker.install, different] using suspended

theorem Kept.called
    (merges : ∀ operator < dataflow.size, ∀ last,
      dataflow.inputMax operator = some last → MergesLast last)
    (kept : running.Kept dataflow) (due : running.due = some operator)
    (ran : (running.operators operator).step workerId call = .ok stepped) :
    ((running.install dataflow.toGraph workerId operator call stepped).emit
      dataflow.toGraph (some operator) stepped.output).Kept dataflow := by
  have inGraph := kept.lt_of_due due
  have consistent := (kept.sound.wired operator inGraph).consistent
  have allowed : running.toWorker.allowed dataflow.toGraph workerId
      (.step operator call) := inGraph
  have acted : running.toWorker.act dataflow.toGraph workerId
      (.step operator call) = .ok ((running.install dataflow.toGraph workerId
        operator call stepped).emit dataflow.toGraph (some operator)
          stepped.output).toWorker := by
    simp only [Worker.act, ran]
    rfl
  constructor
  case sound => exact kept.sound.step allowed acted
  case unscaled => exact kept.unscaled
  case root =>
    intro message member
    rw [sent_emit, if_neg (Option.some_ne_none operator).symm,
      List.append_nil] at member
    exact kept.root message member
  case within => exact kept.within
  case observed =>
    apply Observed.emit
    exact kept.observed
  case fed =>
    apply (kept.fed.install consistent ran).emit
    intro other otherIn
    exact ((kept.sound.wired.install inGraph ran) other otherIn).channels
  case informed => exact (kept.informed.install merges consistent ran).emit _ _
  case visited => exact (kept.visited.install due).emit _ _

omit [DecidableEq K] [MaybeTime T] [LT T] [DecidableLT T] in
theorem finished_of_isFinalized [DecidableEq T] (kept : running.Kept dataflow)
    (inGraph : operator < dataflow.size)
    (finalized : running.isFinalized dataflow operator = true) :
    running.Finished dataflow operator := by
  simp only [Running.isFinalized, Bool.and_eq_true] at finalized
  obtain ⟨⟨output, input⟩, -⟩ := finalized
  refine ⟨fun last isMax => ?_, fun last isMax channel linked => ?_⟩
  · rw [isMax] at output
    exact kept.observed (some operator) last (eq_of_checkFinished output)
  · rw [isMax] at input
    rw [← (kept.sound.wired operator inGraph).channels] at linked
    exact (kept.informed operator inGraph last isMax).frontier
      (eq_of_checkFinished input) channel linked

omit [DecidableEq K] [MaybeTime T] [LT T] [DecidableLT T] in
theorem Kept.proceed [DecidableEq T] (kept : running.Kept dataflow)
    (idle : running.due = none) : (running.proceed dataflow).Kept dataflow where
  sound := kept.sound
  unscaled := kept.unscaled
  root := kept.root
  within := by
    have within := kept.within
    simp only [Running.proceed]
    split
    next => exact Nat.le_refl _
    next => dsimp only; omega
  observed := kept.observed
  fed := kept.fed
  informed := kept.informed
  visited := by
    intro done operator inGraph passed
    change (running.operators operator).isSuspended = true ∨
      running.Finished dataflow operator
    simp only [Running.proceed] at done passed
    split at done
    next begins =>
      simp only [begins] at passed
      omega
    next current isRemaining =>
      simp only [isRemaining, Bool.and_eq_true, Bool.or_eq_true,
        Bool.not_eq_true'] at done passed
      rcases Nat.eq_or_lt_of_le passed with rfl | later
      · cases entered : running.pass.entered with
        | true =>
            have finalized := done.2.resolve_left (by simp [entered])
            exact .inr (finished_of_isFinalized kept inGraph finalized)
        | false =>
            simp only [Running.due, isRemaining, entered] at idle
            exact .inl (by simpa using idle)
      · exact kept.visited done.1 operator inGraph (by omega)

end

/-! ### The distributors of a worker -/

/-- What a distributor has done, in the order of its own book. -/
def ledger (running : Running K V T S E) (operator : Nat)
    (distributor : Distributor K V T) : Ledger K V T where
  distributor := distributor
  taken := (running.histories operator).taken
  heard := (running.histories operator).heard
  handed := (running.outputs (some operator)).sent
  sent := (running.histories operator).posted

/-- Nothing of value is taken behind the last time, and the distributors
announce it behind everyone else's. -/
structure Concludes [DecidableEq T] (dataflow : Dataflow K V T S E)
    (workers : IndexSet WorkerId) (worker : WorkerId)
    (running : Running K V T S E) : Prop where
  taken : ∀ operator < dataflow.size, ∀ last,
    dataflow.inputMax operator = some last →
      Ends last (running.histories operator).taken
  final : ∀ operator < dataflow.size, ∀ partitioner,
    dataflow.kind operator = .distribute partitioner → ∀ last,
    dataflow.outputMax operator = some last →
      ∃ distributor, (running.operators operator).body =
          .distributor partitioner distributor ∧
        (running.ledger operator distributor).Final last
          (fun key => partitioner key workers) worker workers 0

/-- No operator which is not a distributor sends a record behind the last
time. -/
def Ending [DecidableEq T] (dataflow : Dataflow K V T S E)
    (running : Running K V T S E) : Prop :=
  ∀ operator < dataflow.size, ∀ logic initial,
    dataflow.kind operator = .logic logic initial → ∀ last,
    dataflow.outputMax operator = some last →
      Ends last (running.outputs (some operator)).sent

section

variable [DecidableEq T] {dataflow : Dataflow K V T S E}
  {running : Running K V T S E} {workers : IndexSet WorkerId}
  {worker : WorkerId} {operator : Nat}

theorem ends_sent (kept : running.Kept dataflow)
    (concludes : running.Concludes dataflow workers worker)
    (ending : running.Ending dataflow) (inGraph : operator < dataflow.size)
    {last : T} (isMax : dataflow.inputMax operator = some last)
    {source : Option Nat} (linked : source ∈ dataflow.upstream operator) :
    Ends last (running.outputs source).sent := by
  cases source with
  | none => exact Sealed.nil.pushAll kept.root
  | some source =>
      have earlier := dataflow.earlier operator inGraph source linked
      have sourceIn : source < dataflow.size := by omega
      have sourceMax := (dataflow.typed operator inGraph source linked).trans
        isMax
      cases kind : dataflow.kind source with
      | logic logic initial =>
          exact ending source sourceIn logic initial kind last sourceMax
      | distribute partitioner =>
          obtain ⟨distributor, -, final⟩ :=
            concludes.final source sourceIn partitioner kind last sourceMax
          exact final.ends

theorem ends_channel (kept : running.Kept dataflow)
    (concludes : running.Concludes dataflow workers worker)
    (ending : running.Ending dataflow) (inGraph : operator < dataflow.size)
    {last : T} (isMax : dataflow.inputMax operator = some last) {channel : Nat}
    (inRange : channel < (dataflow.upstream operator).length) :
    Ends last ((running.histories operator).received channel ++
      (running.operators operator).input.queue channel) := by
  have isSource : (dataflow.upstream operator)[channel]? =
      some (dataflow.upstream operator)[channel] := by simp [inRange]
  rw [kept.fed operator inGraph channel _ isSource]
  exact (ends_sent kept concludes ending inGraph isMax
    (List.getElem_mem inRange)).filter _

end

section

variable [DecidableEq K] [DecidableEq T] [MaybeTime T] [LT T] [DecidableLT T]
  {dataflow : Dataflow K V T S E} {running : Running K V T S E}
  {workers : IndexSet WorkerId} {worker : WorkerId} {operator : Nat}
  {call : Call E} {stepped : Stepped K V T S E}

omit [DecidableEq T] in
theorem Kept.unscaled_taken (kept : running.Kept dataflow)
    (inGraph : operator < dataflow.size)
    (ran : (running.operators operator).step worker call = .ok stepped) :
    ∀ message ∈ stepped.taken, message.rescale? = none := by
  intro message isTaken
  cases message with
  | rescale trigger =>
      obtain ⟨channel, inRange, sent⟩ :=
        kept.sound.wired.taken_sent inGraph ran isTaken rfl
      obtain ⟨procedure, isProcedure, same⟩ := kept.sound.exclusive.sent
        kept.sound.linked inGraph inRange rfl sent
      cases procedure with
      | reconfig current => exact absurd isProcedure (kept.unscaled current)
      | snapshot => cases same
      | suspend => cases same
  | _ => rfl

/-- What a call takes is behind the last time only if it is no record. -/
theorem ends_taken (kept : running.Kept dataflow)
    (concludes : running.Concludes dataflow workers worker)
    (ending : running.Ending dataflow) (inGraph : operator < dataflow.size)
    (ran : (running.operators operator).step worker call = .ok stepped)
    {last : T} (isMax : dataflow.inputMax operator = some last) :
    Ends last ((running.histories operator).taken ++ stepped.taken.toList) := by
  have wired := kept.sound.wired operator inGraph
  have before := concludes.taken operator inGraph last isMax
  have received := (StandardOperator.step_ran wired.consistent ran).2
  split at received
  next => simpa [received.1] using before
  next =>
    apply (kept.informed operator inGraph last isMax).ends received _ before
    intro channel linked
    rw [wired.channels] at linked
    exact ends_channel kept concludes ending inGraph isMax linked

/-- The records in the mail of a distributor are its own, and none is behind
the last time. -/
def Mailed (dataflow : Dataflow K V T S E) (workers : IndexSet WorkerId)
    (worker : WorkerId) (running : Running K V T S E) (operator : Nat) : Prop :=
  ∀ partitioner, dataflow.kind operator = .distribute partitioner → ∀ last,
    dataflow.outputMax operator = some last →
    ∀ remote ∈ workers, remote ≠ worker →
      (∀ record, .data record ∈ (running.operators operator).mail remote →
        partitioner record.content.key workers = worker) ∧
      EndsOnLink last
        (Links.addressedTo remote (running.histories operator).heard ++
          (running.operators operator).mail remote)

omit [DecidableEq T] in
theorem posted_called {graph : Graph K V T S E} (other : Nat) :
    (((running.install graph worker operator call stepped).emit graph
        (some operator) stepped.output).histories other).posted =
      (running.histories other).posted ++
        if other = operator then
          (running.operators operator).posts worker call
        else [] := by
  rcases eq_or_ne other operator with rfl | different
  · simp [Running.emit, Running.install]
  · simp [Running.emit, Running.install, different]

def arrived (running : Running K V T S E) (operator : Nat)
    (remote : WorkerId) : List (NetworkMessage K V T) :=
  Links.addressedTo remote (running.histories operator).heard ++
    (running.operators operator).mail remote

omit [DecidableEq T] in
theorem arrived_called {graph : Graph K V T S E}
    (ran : (running.operators operator).step worker call = .ok stepped)
    (other : Nat) (remote : WorkerId) :
    ((running.install graph worker operator call stepped).emit graph
        (some operator) stepped.output).arrived other remote =
      running.arrived other remote := by
  rcases eq_or_ne other operator with rfl | different
  · rw [arrived, arrived, ← StandardOperator.mail_step ran remote]
    simp [Running.emit, Worker.hand, Running.install, Worker.install,
      Links.addressedTo_append]
  · simp [arrived, Running.emit, Worker.hand, Running.install, Worker.install,
      different]

omit [DecidableEq K] [DecidableEq T] [MaybeTime T] [LT T] [DecidableLT T] in
theorem arrived_receive (operator other : Nat) (source remote : WorkerId)
    (message : NetworkMessage K V T) :
    (running.receive operator source message).arrived other remote =
      running.arrived other remote ++
        if other = operator ∧ remote = source then [message] else [] := by
  rcases eq_or_ne other operator with rfl | different
  · rcases eq_or_ne remote source with rfl | another
    · simp [arrived, receive]
    · simp [arrived, receive, another]
  · simp [arrived, receive, different]

omit [DecidableEq T] in
theorem ledger_called {graph : Graph K V T S E}
    {partitioner : WorkerPartitioner K} {distributor : Distributor K V T}
    (body : (running.operators operator).body =
      .distributor partitioner distributor)
    (next : Distributor K V T) :
    ((running.install graph worker operator call stepped).emit graph
        (some operator) stepped.output).ledger operator next =
      (running.ledger operator distributor).after
        (distributor.remoteMessages (running.operators operator).mail)
        stepped.taken.toList next
        { output := stepped.output
          network := (running.operators operator).posts worker call } := by
  have reads : (running.operators operator).reads =
      distributor.remoteMessages (running.operators operator).mail := by
    simp only [StandardOperator.reads, body]
  simp only [ledger, Ledger.after, sent_emit, if_true, ← reads]
  simp [Running.emit, Running.install]

omit [DecidableEq T] in
theorem ledger_other {graph : Graph K V T S E} {other : Nat}
    (different : other ≠ operator) (distributor : Distributor K V T) :
    ((running.install graph worker operator call stepped).emit graph
        (some operator) stepped.output).ledger other distributor =
      running.ledger other distributor := by
  simp only [ledger, sent_emit]
  simp [Running.emit, Running.install, different]

omit [DecidableEq K] [MaybeTime T] in
theorem Concludes.begin
    (concludes : running.Concludes dataflow workers worker)
    (procedure : Procedure) :
    (running.begin dataflow.toGraph procedure).Concludes dataflow workers
      worker where
  taken := concludes.taken
  final other otherIn partitioner isKind last isMax := by
    obtain ⟨distributor, body, final⟩ :=
      concludes.final other otherIn partitioner isKind last isMax
    refine ⟨distributor, body, ?_⟩
    have same : (running.begin dataflow.toGraph procedure).ledger other
        distributor = running.ledger other distributor := by
      simp only [ledger, Running.begin, sent_emit]
      simp [Running.emit, Running.command]
    rw [same]
    exact final

omit [DecidableEq K] [MaybeTime T] [LT T] [DecidableLT T] in
theorem Concludes.receive
    (concludes : running.Concludes dataflow workers worker) (operator : Nat)
    (remote : WorkerId) (message : NetworkMessage K V T) :
    (running.receive operator remote message).Concludes dataflow workers
      worker where
  taken := concludes.taken
  final other otherIn partitioner isKind last isMax := by
    obtain ⟨distributor, body, final⟩ :=
      concludes.final other otherIn partitioner isKind last isMax
    refine ⟨distributor, ?_, final⟩
    rw [← body]
    simp only [Running.receive, Function.update_apply]
    split
    next same => rw [same]
    next => rfl

theorem Concludes.called
    (merges : ∀ operator < dataflow.size, ∀ last,
      dataflow.inputMax operator = some last → MergesLast last)
    (kept : running.Kept dataflow)
    (concludes : running.Concludes dataflow workers worker)
    (ending : running.Ending dataflow) (inGraph : operator < dataflow.size)
    (mailed : running.Mailed dataflow workers worker operator)
    (ran : (running.operators operator).step worker call = .ok stepped) :
    ((running.install dataflow.toGraph worker operator call stepped).emit
      dataflow.toGraph (some operator) stepped.output).Concludes dataflow
        workers worker where
  taken other otherIn last isMax := by
    rcases eq_or_ne other operator with rfl | different
    · simp only [Running.emit, Running.install, Function.update_self]
      exact ends_taken kept concludes ending otherIn ran isMax
    · simp only [Running.emit, Running.install,
        Function.update_of_ne different]
      exact concludes.taken other otherIn last isMax
  final other otherIn partitioner isKind last isMax := by
    obtain ⟨distributor, body, final⟩ :=
      concludes.final other otherIn partitioner isKind last isMax
    rcases eq_or_ne other operator with rfl | different
    · obtain ⟨result, runs, after, taken, output, posts⟩ :=
        StandardOperator.step_posts body ran
      have inputMax := (dataflow.distributes other otherIn partitioner
        isKind).symm.trans isMax
      have both := mailed partitioner isKind last isMax
      have client {remote : WorkerId}
          (member : remote ∈ distributor.remotes) :
          remote ∈ workers ∧ remote ≠ worker := (final.clients remote).mp member
      refine ⟨result.distributor, ?_, ?_⟩
      · simpa [Running.emit, Worker.hand, Running.install, Worker.install]
          using after
      · have next := final.run (merges other otherIn last inputMax)
          (fun remote member => (both remote (client member).1
            (client member).2).1)
          (fun remote member => (both remote (client member).1
            (client member).2).2)
          (taken ▸ kept.unscaled_taken otherIn ran)
          (taken ▸ ends_taken kept concludes ending otherIn ran inputMax) runs
        rw [ledger_called body, taken, output, posts]
        exact next
    · refine ⟨distributor, ?_, ?_⟩
      · simpa [Running.emit, Worker.hand, Running.install, Worker.install,
          different] using body
      · rw [ledger_other different]
        exact final

end

end Running

end Malstrom.Stream
