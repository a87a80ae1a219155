import Malstrom.Stream.Finished
import Malstrom.Stream.Library

namespace Malstrom.Stream

open Data Channels Keyed Operators MaybeTime

variable {K V T S E : Type}

/-! What a worker has done with the records of all workers when its pass over
its operators returns true. -/

namespace Execution

variable [DecidableEq K] [DecidableEq T] [MaybeTime T] [LT T] [DecidableLT T]
  {dataflow : Dataflow K V T S E} {workers : IndexSet WorkerId}
  {execution next : Execution K V T S E} {event : Event E}

inductive Moved (dataflow : Dataflow K V T S E)
    (execution : Execution K V T S E) : Event E → Execution K V T S E → Prop
  | proceeds {worker : WorkerId} {call : Call E}
      (idle : (execution.workers worker).due = none) :
      Moved dataflow execution (.advance worker call)
        (execution.set worker ((execution.workers worker).proceed dataflow))
  | calls {worker : WorkerId} {call : Call E} {operator : Nat}
      {stepped : Stepped K V T S E}
      (due : (execution.workers worker).due = some operator)
      (ran : ((execution.workers worker).operators operator).step worker call =
        .ok stepped) :
      Moved dataflow execution (.advance worker call)
        { workers := Function.update execution.workers worker
            (((execution.workers worker).install dataflow.toGraph worker
              operator call stepped).emit dataflow.toGraph (some operator)
                stepped.output)
          links := Function.update execution.links operator
            ((execution.links operator).sendAll worker
              (((execution.workers worker).operators operator).posts worker
                call)) }
  | begins {worker : WorkerId} {procedure : Procedure} :
      Moved dataflow execution (.command worker procedure)
        (execution.set worker
          ((execution.workers worker).begin dataflow.toGraph procedure))
  | empty {operator : Nat} {source target : WorkerId} :
      Moved dataflow execution (.deliver operator source target) execution
  | delivers {operator : Nat} {source target : WorkerId}
      {message : NetworkMessage K V T} {rest : List (NetworkMessage K V T)}
      (head : execution.links operator source target = message :: rest) :
      Moved dataflow execution (.deliver operator source target)
        { workers := Function.update execution.workers target
            ((execution.workers target).receive operator source message)
          links := Function.update execution.links operator
            ((execution.links operator).set source target rest) }

theorem moved (stepped : execution.step dataflow event = .ok next) :
    Moved dataflow execution event next := by
  cases event with
  | advance worker call =>
      simp only [step] at stepped
      split at stepped
      next idle =>
        obtain rfl := Except.ok.inj stepped
        exact .proceeds idle
      next operator due =>
        split at stepped
        next => cases stepped
        next ran =>
          obtain rfl := Except.ok.inj stepped
          exact .calls due ran
  | command worker procedure =>
      obtain rfl := Except.ok.inj stepped
      exact .begins
  | deliver operator source target =>
      simp only [step] at stepped
      split at stepped
      next =>
        obtain rfl := Except.ok.inj stepped
        exact .empty
      next message rest head =>
        obtain rfl := Except.ok.inj stepped
        exact .delivers head

omit [DecidableEq K] [DecidableEq T] [MaybeTime T] [LT T] [DecidableLT T] in
theorem all_update {holds : WorkerId → Running K V T S E → Prop}
    (all : ∀ worker ∈ workers, holds worker (execution.workers worker))
    {mover : WorkerId} {running : Running K V T S E}
    (moves : holds mover (execution.workers mover) → holds mover running) :
    ∀ worker ∈ workers,
      holds worker (Function.update execution.workers mover running worker) := by
  intro worker inside
  rcases eq_or_ne worker mover with rfl | different
  · rw [Function.update_self]
    exact moves (all worker inside)
  · rw [Function.update_of_ne different]
    exact all worker inside

def Kept (dataflow : Dataflow K V T S E) (workers : IndexSet WorkerId)
    (execution : Execution K V T S E) : Prop :=
  ∀ worker ∈ workers, (execution.workers worker).Kept dataflow

theorem Kept.step
    (merges : ∀ operator < dataflow.size, ∀ last,
      dataflow.inputMax operator = some last → MergesLast last)
    (kept : execution.Kept dataflow workers)
    (allowed : execution.allowed dataflow workers event)
    (stepped : execution.step dataflow event = .ok next) :
    next.Kept dataflow workers := by
  cases moved stepped with
  | proceeds idle =>
      exact all_update kept fun before => before.proceed idle
  | calls due ran =>
      exact all_update kept fun before => before.called merges due ran
  | begins =>
      exact all_update kept fun before =>
        before.begin allowed.2.2.2 allowed.2.1
  | empty => exact kept
  | delivers head =>
      exact all_update kept fun before => before.receive _ _ _

/-- What was sent to a worker has arrived or is on its way. -/
def Connected (workers : IndexSet WorkerId)
    (execution : Execution K V T S E) : Prop :=
  ∀ operator, ∀ source ∈ workers, ∀ target ∈ workers,
    Links.addressedTo target
        ((execution.workers source).histories operator).posted =
      (execution.workers target).arrived operator source ++
        execution.links operator source target

omit [DecidableEq K] [DecidableEq T] [MaybeTime T] [LT T] [DecidableLT T] in
theorem Connected.move (connected : execution.Connected workers)
    {mover : WorkerId} {running : Running K V T S E}
    {links : Nat → Links WorkerId (NetworkMessage K V T)}
    (posts : Nat → List (WorkerId × NetworkMessage K V T))
    (gets : Nat → WorkerId → List (NetworkMessage K V T))
    (posted : ∀ operator, (running.histories operator).posted =
      ((execution.workers mover).histories operator).posted ++ posts operator)
    (arrived : ∀ operator remote, running.arrived operator remote =
      (execution.workers mover).arrived operator remote ++
        gets operator remote)
    (flow : ∀ operator source target,
      (if target = mover then gets operator source else []) ++
          links operator source target =
        execution.links operator source target ++
          if source = mover then Links.addressedTo target (posts operator)
          else []) :
    Connected workers
      { workers := Function.update execution.workers mover running
        links := links } := by
  intro operator source sourceIn target targetIn
  have before := connected operator source sourceIn target targetIn
  have sends : Links.addressedTo target
      ((Function.update execution.workers mover running source).histories
        operator).posted =
      Links.addressedTo target
        ((execution.workers source).histories operator).posted ++
      if source = mover then Links.addressedTo target (posts operator)
      else [] := by
    rcases eq_or_ne source mover with rfl | different
    · rw [Function.update_self, posted, Links.addressedTo_append, if_pos rfl]
    · rw [Function.update_of_ne different, if_neg different, List.append_nil]
  have arrives : (Function.update execution.workers mover running
      target).arrived operator source =
      (execution.workers target).arrived operator source ++
        if target = mover then gets operator source else [] := by
    rcases eq_or_ne target mover with rfl | different
    · rw [Function.update_self, arrived, if_pos rfl]
    · rw [Function.update_of_ne different, if_neg different, List.append_nil]
  calc
    _ = (execution.workers target).arrived operator source ++
          (execution.links operator source target ++
            if source = mover then Links.addressedTo target (posts operator)
            else []) := by rw [sends, before, List.append_assoc]
    _ = _ := by rw [← flow, arrives, List.append_assoc]

theorem Connected.step (connected : execution.Connected workers)
    (stepped : execution.step dataflow event = .ok next) :
    next.Connected workers := by
  cases moved stepped with
  | proceeds idle =>
      exact connected.move (fun _ => []) (fun _ _ => [])
        (by simp [Running.proceed])
        (by simp [Running.arrived, Running.proceed]) (by simp)
  | @calls mover call operator ran due isRan =>
      refine connected.move (fun other =>
          if other = operator then
            ((execution.workers mover).operators operator).posts mover call
          else [])
        (fun _ _ => []) Running.posted_called (fun other remote => ?_)
        fun other source target => ?_
      · rw [Running.arrived_called isRan, List.append_nil]
      · rcases eq_or_ne other operator with rfl | different
        · simp only [Function.update_self, Links.sendAll_apply, if_true,
            ite_self, List.nil_append]
          split <;> simp
        · simp [different]
  | begins =>
      exact connected.move (fun _ => []) (fun _ _ => [])
        (by simp [Running.begin, Running.emit, Running.command])
        (by simp [Running.arrived, Running.begin, Running.emit,
          Running.command, Worker.hand])
        (by simp)
  | empty => exact connected
  | @delivers operator sender receiver message rest head =>
      refine connected.move (fun _ => []) (fun other remote =>
          if other = operator ∧ remote = sender then [message] else [])
        (by simp [Running.receive])
        (fun other remote =>
          Running.arrived_receive operator other sender remote message)
        fun other source target => ?_
      rcases eq_or_ne other operator with rfl | different
      · rcases eq_or_ne source sender with rfl | another
        · rcases eq_or_ne target receiver with rfl | away
          · simp [Links.set_apply, head]
          · simp [Links.set_apply, away]
        · simp [Links.set_apply, another]
      · simp [different]

def Ending (dataflow : Dataflow K V T S E) (workers : IndexSet WorkerId)
    (execution : Execution K V T S E) : Prop :=
  ∀ worker ∈ workers, (execution.workers worker).Ending dataflow

def Opens (source : Option Nat) (messages : WorkerId → List (Message K V T))
    (worker : WorkerId) (running : Running K V T S E) : Prop :=
  messages worker <+: (running.outputs source).sent

theorem opens_step (stepped : execution.step dataflow event = .ok next)
    {source : Option Nat} {messages : WorkerId → List (Message K V T)}
    (sent : ∀ worker ∈ workers,
      Opens source messages worker (execution.workers worker)) :
    ∀ worker ∈ workers,
      Opens source messages worker (next.workers worker) := by
  cases moved stepped with
  | proceeds idle => exact all_update sent fun before => before
  | calls due ran =>
      refine all_update sent fun before => ?_
      rw [Opens, Running.sent_emit]
      exact before.trans (List.prefix_append _ _)
  | begins =>
      refine all_update sent fun before => ?_
      rw [Opens, Running.begin, Running.sent_emit]
      exact before.trans (List.prefix_append _ _)
  | empty => exact sent
  | delivers head => exact all_update sent fun before => before

theorem Ending.before (ending : next.Ending dataflow workers)
    (stepped : execution.step dataflow event = .ok next) :
    execution.Ending dataflow workers := by
  intro worker inside operator inGraph logic initial kind last isMax
  have same : ∀ other ∈ workers, Opens (some operator) (fun other =>
      ((execution.workers other).outputs (some operator)).sent) other
        (execution.workers other) := fun _ _ => List.prefix_rfl
  obtain ⟨more, sent⟩ := opens_step stepped same worker inside
  have later := ending worker inside operator inGraph logic initial kind last
    isMax
  rw [← sent] at later
  exact later.earlier

def Concludes (dataflow : Dataflow K V T S E) (workers : IndexSet WorkerId)
    (execution : Execution K V T S E) : Prop :=
  ∀ worker ∈ workers,
    (execution.workers worker).Concludes dataflow workers worker

omit [DecidableEq K] [MaybeTime T] [LT T] [DecidableLT T] in
/-- What a distributor has in its mail, another one has sent to it. -/
theorem mailed (connected : execution.Connected workers)
    (concludes : execution.Concludes dataflow workers) {worker : WorkerId}
    (inside : worker ∈ workers) {operator : Nat}
    (inGraph : operator < dataflow.size) :
    (execution.workers worker).Mailed dataflow workers worker operator := by
  intro partitioner isKind last isMax remote remoteIn other
  obtain ⟨distributor, -, final⟩ := (concludes remote remoteIn).final operator
    inGraph partitioner isKind last isMax
  have sent := connected operator remote remoteIn worker inside
  refine ⟨fun record member => ?_, ?_⟩
  · apply final.owned
    apply Links.mem_addressedTo.mp
    simp only [Running.ledger, sent, Running.arrived, List.mem_append]
    exact .inl (.inr member)
  · have ends := final.endsOnLink worker
    simp only [Running.ledger, sent] at ends
    exact ends.earlier

theorem Concludes.step
    (merges : ∀ operator < dataflow.size, ∀ last,
      dataflow.inputMax operator = some last → MergesLast last)
    (kept : execution.Kept dataflow workers)
    (connected : execution.Connected workers)
    (concludes : execution.Concludes dataflow workers)
    (ending : execution.Ending dataflow workers)
    (allowed : execution.allowed dataflow workers event)
    (stepped : execution.step dataflow event = .ok next) :
    next.Concludes dataflow workers := by
  cases moved stepped with
  | proceeds idle =>
      exact all_update concludes fun before => ⟨before.taken, before.final⟩
  | @calls mover call operator ran due isRan =>
      have inGraph := (kept mover allowed).lt_of_due due
      exact all_update concludes fun before =>
        before.called merges (kept mover allowed) (ending mover allowed) inGraph
          (mailed connected concludes allowed inGraph) isRan
  | begins => exact all_update concludes fun before => before.begin _
  | empty => exact concludes
  | delivers head =>
      exact all_update concludes fun before => before.receive _ _ _

/-! ### Every reachable state -/

section

variable {initial : WorkerId → Worker K V T S E}
  (built : ∀ worker (inside : worker ∈ workers),
    dataflow.toGraph.execute ⟨worker, workers, inside⟩ = .ok (initial worker))

omit [DecidableEq K] [DecidableEq T] [MaybeTime T] [LT T] [DecidableLT T]

include built

theorem Kept.start : (Execution.start initial).Kept dataflow workers := by
  intro worker inside
  obtain ⟨operators, procedure, -, -⟩ :=
    Worker.execute_eq_ok (built worker inside)
  constructor
  case sound => exact .execute (built worker inside)
  case unscaled => simp [Execution.start, procedure]
  case root => simp [Execution.start]
  case within => exact Nat.zero_le _
  case observed =>
    intro source epoch isFrontier
    cases isFrontier
  case fed =>
    intro operator inGraph channel source isSource
    simp only [Execution.start, operators, Worker.queue_intoRunnable]
    rfl
  case informed =>
    intro operator inGraph last isMax
    simp only [Execution.start, operators, Graph.intoRunnable]
    constructor
    case epochs =>
      intro channel upstream found isLast
      simp only [List.getElem?_map, Option.map_eq_some_iff] at found
      obtain ⟨source, -, rfl⟩ := found
      cases isLast
    case frontier => simp
    case taken => simp
  case visited =>
    intro done
    cases done

theorem Connected.start : (Execution.start initial).Connected workers := by
  intro operator source sourceIn target targetIn
  obtain ⟨operators, -⟩ := Worker.execute_eq_ok (built target targetIn)
  simp [Execution.start, Running.arrived, operators, Graph.intoRunnable]

theorem Concludes.start [DecidableEq T] :
    (Execution.start initial).Concludes dataflow workers := by
  intro worker inside
  obtain ⟨operators, -⟩ := Worker.execute_eq_ok (built worker inside)
  constructor
  case taken => exact fun _ _ _ _ => Sealed.nil
  case final =>
    intro operator inGraph partitioner isKind last isMax
    refine ⟨Distributor.fresh worker workers, ?_, Ledger.Final.fresh⟩
    simp only [Execution.start, operators, Graph.intoRunnable, isKind]

end

variable {initial : WorkerId → Worker K V T S E} {worker : WorkerId}

theorem reachable
    (merges : ∀ operator < dataflow.size, ∀ last,
      dataflow.inputMax operator = some last → MergesLast last)
    (built : ∀ worker (inside : worker ∈ workers),
      dataflow.toGraph.execute ⟨worker, workers, inside⟩ = .ok (initial worker))
    (run : Reaches (step dataflow) (allowed dataflow workers)
      (Execution.start initial) execution) :
    execution.Kept dataflow workers ∧ execution.Connected workers ∧
      (execution.Ending dataflow workers →
        execution.Concludes dataflow workers) := by
  induction run with
  | refl => exact ⟨.start built, .start built, fun _ => .start built⟩
  | tail run permitted stepped ih =>
      obtain ⟨kept, connected, concludes⟩ := ih
      refine ⟨kept.step merges permitted stepped, connected.step stepped, ?_⟩
      intro ending
      have before := ending.before stepped
      exact (concludes before).step merges kept connected before permitted
        stepped

omit [DecidableEq K] [MaybeTime T] [LT T] [DecidableLT T] in
theorem unqueued {running : Running K V T S E}
    (kept : running.Kept dataflow)
    (concludes : running.Concludes dataflow workers worker)
    (ending : running.Ending dataflow) {operator : Nat}
    (inGraph : operator < dataflow.size)
    (finished : running.Finished dataflow operator)
    {last : T} (isMax : dataflow.inputMax operator = some last)
    (channel : Nat) :
    ∀ message ∈ (running.operators operator).input.queue channel,
      message.isData = false := by
  have channels := (kept.sound.wired operator inGraph).channels
  rcases Nat.lt_or_ge channel (dataflow.upstream operator).length
    with inRange | outside
  · have ends := Running.ends_channel kept concludes ending inGraph isMax inRange
    exact ends.behind (finished.2 last isMax channel inRange)
      (Message.isEpoch_iff.mpr rfl)
  · rw [← channels] at outside
    simp [Input.queue_unlinked _ outside]

omit [DecidableEq K] [MaybeTime T] [LT T] [DecidableLT T] in
/-- A distributor which has announced the last time has heard every record
sent to it. -/
theorem heard_all (connected : execution.Connected workers)
    (concludes : execution.Concludes dataflow workers)
    (inside : worker ∈ workers) {operator : Nat}
    (inGraph : operator < dataflow.size) {partitioner : WorkerPartitioner K}
    (isKind : dataflow.kind operator = .distribute partitioner) {last : T}
    (isMax : dataflow.outputMax operator = some last)
    (finished : (execution.workers worker).Finished dataflow operator)
    {remote : WorkerId} (remoteIn : remote ∈ workers)
    (other : remote ≠ worker) :
    (Links.addressedTo worker
        ((execution.workers remote).histories operator).posted).filterMap
          NetworkMessage.record? =
      (Links.addressedTo remote
        ((execution.workers worker).histories operator).heard).filterMap
          NetworkMessage.record? := by
  obtain ⟨_, -, here⟩ := (concludes worker inside).final operator inGraph
    partitioner isKind last isMax
  obtain ⟨_, -, there⟩ := (concludes remote remoteIn).final operator inGraph
    partitioner isKind last isMax
  have sent := connected operator remote remoteIn worker inside
  have ends := there.endsOnLink worker
  simp only [Running.ledger] at ends
  rw [sent, Running.arrived, List.append_assoc] at ends ⊢
  have heard : .epoch last ∈ Links.addressedTo remote
      ((execution.workers worker).histories operator).heard :=
    Links.mem_addressedTo.mpr
      ((here.final (finished.1 last isMax)).2 remote remoteIn other)
  have silent := ends.behind heard (NetworkMessage.isEpoch_iff.mpr rfl)
  rw [List.filterMap_append, List.append_right_eq_self,
    List.filterMap_eq_nil_iff]
  intro message member
  simpa [NetworkMessage.isData] using silent message member

/-- A worker which returns from a pass without suspended operators has taken
every record of its streams with timestamps, and each of their distributors
has handed down every record another worker has ever sent to it. -/
theorem returned_has_processed
    (merges : ∀ operator < dataflow.size, ∀ last,
      dataflow.inputMax operator = some last → MergesLast last)
    (built : ∀ worker (inside : worker ∈ workers),
      dataflow.toGraph.execute ⟨worker, workers, inside⟩ = .ok (initial worker))
    (run : Reaches (step dataflow) (allowed dataflow workers)
      (Execution.start initial) execution)
    (ending : execution.Ending dataflow workers) (inside : worker ∈ workers)
    (returned : (execution.workers worker).Returned)
    (unsuspended : ∀ operator < dataflow.size,
      ((execution.workers worker).operators operator).isSuspended = false) :
    (∀ operator < dataflow.size, dataflow.inputMax operator ≠ none →
      ∀ channel, ∀ message ∈
        ((execution.workers worker).operators operator).input.queue channel,
          message.isData = false) ∧
    ∀ operator < dataflow.size, dataflow.outputMax operator ≠ none →
      ∀ partitioner, dataflow.kind operator = .distribute partitioner →
        (∀ remote ∈ workers, remote ≠ worker →
          (Links.addressedTo worker ((execution.workers remote).histories
              operator).posted).filterMap NetworkMessage.record? =
            (Links.addressedTo remote ((execution.workers worker).histories
              operator).heard).filterMap NetworkMessage.record?) ∧
        (recordsOf ((execution.workers worker).histories operator).heard).Sublist
          (((execution.workers worker).outputs
            (some operator)).sent.filterMap Message.data?) := by
  obtain ⟨kept, connected, concluding⟩ := reachable merges built run
  have concludes := concluding ending
  have finished (operator : Nat) (inGraph : operator < dataflow.size) :
      (execution.workers worker).Finished dataflow operator := by
    obtain ⟨ended, allDone⟩ := returned
    refine ((kept worker inside).visited allDone operator inGraph
      (by omega)).resolve_left ?_
    simp [unsuspended operator inGraph]
  refine ⟨fun operator inGraph timed channel => ?_,
    fun operator inGraph timed partitioner isKind => ⟨?_, ?_⟩⟩
  · obtain ⟨last, isMax⟩ := Option.ne_none_iff_exists'.mp timed
    exact unqueued (kept worker inside) (concludes worker inside)
      (ending worker inside) inGraph (finished operator inGraph) isMax channel
  · obtain ⟨last, isMax⟩ := Option.ne_none_iff_exists'.mp timed
    intro remote remoteIn other
    exact heard_all connected concludes inside inGraph isKind isMax
      (finished operator inGraph) remoteIn other
  · obtain ⟨last, isMax⟩ := Option.ne_none_iff_exists'.mp timed
    obtain ⟨_, -, final⟩ := (concludes worker inside).final operator inGraph
      partitioner isKind last isMax
    exact final.handedDown

end Execution

/-! A source whose stream has timestamps, in front of a distributor. -/

/-- What a source gets from its client: records and an epoch. -/
abbrev Given (T : Type) := List (DataMessage Nat Nat T) × Option T

def given (T : Type) : Logic Nat Nat T Unit (Given T) :=
  LogicWrapper.intoLogic
    { onSchedule := fun external state => (state, external)
      onData := fun _ state => (state, [])
      onEpoch := fun _ state => (state, [], none)
      onBarrier := fun _ => []
      onRescale := fun _ state => state
      onSuspend := fun state => state
      onCollect := fun _ state => state
      onAcquire := fun acquire state => (state, acquire) }

def discard (T : Type) : Logic Nat Nat T Unit (Given T) :=
  Library.statelessSink fun _ state => state

instance : MaybeTime (Fin 256) := ⟨fun left right => some (min left right)⟩

theorem mergesLast_byte : MergesLast (255 : Fin 256) := by
  intro left right merged
  have merged : min left right = 255 := Option.some.inj merged
  have top (time : Fin 256) : time ≤ 255 := Fin.le_last time
  exact ⟨le_antisymm (top left) (merged ▸ min_le_left left right),
    le_antisymm (top right) (merged ▸ min_le_right left right)⟩

def keyed : Dataflow Nat Nat (Fin 256) Unit (Given (Fin 256)) where
  size := 3
  name operator := toString operator
  operatorId operator := operator
  kind
    | 0 => .logic (given _) ()
    | 1 => .distribute fun key workers => workers.items.getD (key % 2) 0
    | _ => .logic (discard _) ()
  upstream
    | 0 => [none]
    | 1 => [some 0]
    | _ => [some 1]
  carries _ _ _ := true
  inputMax
    | 0 => none
    | _ => some 255
  outputMax
    | 0 | 1 => some 255
    | _ => none
  linked := by decide
  earlier := by
    intro operator inGraph source member
    match operator with
    | 0 => simp at member
    | 1 => simp at member; omega
    | more + 2 => simp at member; omega
  forwards := by
    intro operator inGraph source member
    match operator with
    | 0 => simp at member
    | 1 => simp at member; subst member; rfl
    | more + 2 => simp at member; subst member; rfl
  typed := by
    intro operator inGraph source member
    match operator with
    | 0 => simp at member
    | 1 => simp at member; subst member; rfl
    | more + 2 => simp at member; subst member; rfl
  distributes := by
    intro operator inGraph partitioner isKind
    match operator with
    | 0 => cases isKind
    | 1 => rfl
    | more + 2 => cases isKind

/-- A worker outside of the set is built for itself. -/
def context (workers : IndexSet WorkerId) (worker : WorkerId) : BuildContext :=
  if listed : worker ∈ workers then ⟨worker, workers, listed⟩
  else ⟨worker, IndexSet.ofList [worker], by simp⟩

def Graph.starting (graph : Graph K V T S E) (workers : IndexSet WorkerId)
    (worker : WorkerId) : Worker K V T S E where
  operators := graph.intoRunnable (context workers worker)
  procedure := none
  persisted := []
  logs operator :=
    Log.start (graph.intoRunnable (context workers worker) operator)

theorem Graph.execute_starting {graph : Graph K V T S E}
    (distinct : graph.checkNames [] (List.range graph.size) = .ok ())
    {workers : IndexSet WorkerId} (worker : WorkerId)
    (inside : worker ∈ workers) :
    graph.execute ⟨worker, workers, inside⟩ =
      .ok (graph.starting workers worker) := by
  simp [Graph.execute, distinct, Graph.starting, context, inside]

/-- A worker goes on with these records and this epoch in its next call. -/
def goes {T : Type} (worker : WorkerId) (given : Given T) :
    Execution.Event (Given T) :=
  .advance worker ⟨given, 0⟩

def quietly (T : Type) (worker : WorkerId) (count : Nat) :
    List (Execution.Event (Given T)) :=
  List.replicate count (goes worker ([], none))

def both : IndexSet WorkerId := IndexSet.ofList [0, 1]

/-- Each worker gets a record for itself and one for the other. -/
def keyedTrace : List (Execution.Event (Given (Fin 256))) :=
  let records := ([⟨0, 10, 1⟩, ⟨1, 11, 2⟩], some 255)
  quietly _ 0 5 ++ [goes 0 records] ++ quietly _ 0 10 ++
    quietly _ 1 5 ++ [goes 1 records] ++ quietly _ 1 10 ++
    List.replicate 2 (.deliver 1 1 0) ++ quietly _ 0 21

@[irreducible] def keyedEnd :
    Execution Nat Nat (Fin 256) Unit (Given (Fin 256)) :=
  replay (Execution.step keyed) (.start (keyed.toGraph.starting both)) keyedTrace

theorem keyed_completed :
    Reaches (Execution.step keyed) (Execution.allowed keyed both)
        (.start (keyed.toGraph.starting both)) keyedEnd ∧
      (∀ operator < 3, keyed.inputMax operator ≠ none →
        ∀ channel, ∀ message ∈
          ((keyedEnd.workers 0).operators operator).input.queue channel,
            message.isData = false) ∧
      ∀ operator < 3, keyed.outputMax operator ≠ none →
        ∀ partitioner, keyed.kind operator = .distribute partitioner →
          (∀ remote ∈ both, remote ≠ 0 →
            (Links.addressedTo 0 ((keyedEnd.workers remote).histories
                operator).posted).filterMap NetworkMessage.record? =
              (Links.addressedTo remote ((keyedEnd.workers 0).histories
                operator).heard).filterMap NetworkMessage.record?) ∧
          (recordsOf ((keyedEnd.workers 0).histories operator).heard).Sublist
            (((keyedEnd.workers 0).outputs
              (some operator)).sent.filterMap Message.data?) := by
  have run : Reaches (Execution.step keyed) (Execution.allowed keyed both)
      (.start (keyed.toGraph.starting both)) keyedEnd := by
    unfold keyedEnd
    exact Follows.reaches _ .refl (by decide +kernel)
  have merges : ∀ operator < keyed.size, ∀ last,
      keyed.inputMax operator = some last → MergesLast last := by
    intro operator inGraph last isMax
    have isLast : last = 255 := by
      match operator with
      | 0 => cases isMax
      | more + 1 => exact (Option.some.inj isMax).symm
    exact isLast ▸ mergesLast_byte
  have ended : ∀ worker ∈ both.items,
      Ends 255 ((keyedEnd.workers worker).outputs (some 0)).sent := by
    decide +kernel
  have ending : keyedEnd.Ending keyed both := by
    intro worker inside operator inGraph logic initial isKind last isMax
    match operator with
    | 0 =>
        obtain rfl := Option.some.inj isMax
        exact ended worker inside
    | 1 => cases isKind
    | more + 2 => cases isMax
  have unsuspended : ∀ operator < 3,
      ((keyedEnd.workers 0).operators operator).isSuspended = false := by
    decide +kernel
  exact ⟨run, Execution.returned_has_processed merges (Graph.execute_starting rfl) run ending
    (by decide) (by decide +kernel) unsuspended⟩

/-! A stream without timestamps does not keep its worker going. -/

def untimed : Dataflow Nat Nat NoTime Unit (Given NoTime) where
  size := 2
  name operator := toString operator
  operatorId operator := operator
  kind
    | 0 => .logic (given _) ()
    | _ => .logic (discard _) ()
  upstream
    | 0 => [none]
    | _ => [some 0]
  carries _ _ _ := true
  inputMax _ := none
  outputMax _ := none
  linked := by decide
  earlier := by
    intro operator inGraph source member
    match operator with
    | 0 => simp at member
    | more + 1 => simp at member; omega
  forwards := by
    intro operator inGraph source member
    match operator with
    | 0 => simp at member
    | more + 1 => simp at member; subst member; rfl
  typed _ _ _ _ := rfl
  distributes _ _ _ _ := rfl

def alone : IndexSet WorkerId := IndexSet.ofList [0]

/-- The sink has had its turn when the source sends its record. -/
@[irreducible] def leftBehind :
    Execution Nat Nat NoTime Unit (Given NoTime) :=
  replay (Execution.step untimed) (.start (untimed.toGraph.starting alone))
    (quietly _ 0 3 ++ [goes 0 ([⟨0, 10, .noTime⟩], none)] ++ quietly _ 0 1)

/-- A worker returns with a record in the input of its sink. -/
theorem untimed_left_behind :
    Reaches (Execution.step untimed) (Execution.allowed untimed alone)
        (.start (untimed.toGraph.starting alone)) leftBehind ∧
      leftBehind.Ending untimed alone ∧ (leftBehind.workers 0).Returned ∧
      (∀ operator < 2,
        ((leftBehind.workers 0).operators operator).isSuspended = false) ∧
      ∃ message ∈ ((leftBehind.workers 0).operators 1).input.queue 0,
        message.isData = true := by
  refine ⟨?_, fun worker inside operator inGraph logic initial isKind last
    isMax => ?_, by decide +kernel, by decide +kernel, by decide +kernel⟩
  · unfold leftBehind
    exact Follows.reaches _ .refl (by decide +kernel)
  · cases isMax

end Malstrom.Stream
