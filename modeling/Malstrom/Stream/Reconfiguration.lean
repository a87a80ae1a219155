import Malstrom.Stream.Library
import Malstrom.Stream.Wiring

namespace Malstrom.Stream

open Data Channels Keyed Operators

variable {K V T S E : Type}

/-! What a worker has done when the loop of a reconfiguration has ended. -/

def Turn.takesRescale (turn : Turn K V T E) : Bool :=
  turn.taken.any fun taken => taken.rescale?.isSome

def Procedure.rescale? : Procedure → Option RescaleMessage
  | .reconfig message => some message
  | .snapshot | .suspend => none

theorem Procedure.rescale?_of_message {procedure : Procedure}
    {message : RescaleMessage}
    (same : (Message.rescale message : Message K V T) = procedure.message) :
    procedure.rescale? = some message := by
  cases procedure with
  | reconfig current =>
      obtain rfl := Message.rescale.inj same
      rfl
  | snapshot => cases same
  | suspend => cases same

def Worker.current (worker : Worker K V T S E) : Option RescaleMessage :=
  worker.procedure.bind Procedure.rescale?

/-- How a distributor deals with the rescale messages of the current
procedure. -/
structure Tracked (workerId : WorkerId) (current : Option RescaleMessage)
    (distributor : Distributor K V T) (turns : List (Turn K V T E))
    (handed : List (Message K V T)) : Prop where
  connected : distributor.Connected workerId
  belongs : distributor.Belongs workerId current
  progress : ∀ message, current = some message →
    Progress message handed distributor (turns.any Turn.takesRescale)

/-- The other operators send on what they take. -/
def Adapts (workerId : WorkerId) (current : Option RescaleMessage)
    (turns : List (Turn K V T E)) (handed : List (Message K V T)) :
    Body K V T S E → Prop
  | .logic running _ => running.forwards = true →
      ∀ turn ∈ turns, ∀ message : Message K V T, message.isCounted = true →
        turn.taken = some message → message ∈ handed
  | .distributor _ running => Tracked workerId current running turns handed

def Worker.Adapts (graph : Graph K V T S E) (workerId : WorkerId)
    (worker : Worker K V T S E) : Prop :=
  ∀ operator < graph.size, Stream.Adapts workerId worker.current
    (worker.logs operator).turns (worker.logs operator).handed
    (worker.operators operator).body

section

variable {workerId : WorkerId} {current : Option RescaleMessage}
  {turns : List (Turn K V T E)} {handed : List (Message K V T)}

theorem Tracked.of_keeps {before after : Distributor K V T}
    (keeps : before.Keeps after)
    (tracked : Tracked workerId current before turns handed) :
    Tracked workerId current after turns handed where
  connected worker := by
    rw [keeps.clients, keeps.phase]
    exact tracked.connected worker
  belongs workerSet version phase :=
    tracked.belongs workerSet version (keeps.phase.symm.trans phase)
  progress message isCurrent :=
    (tracked.progress message isCurrent).of_keeps keeps

/-- At a command which follows the procedure of a rescale this worker is part
of the new worker set. -/
theorem Adapts.start {body : Body K V T S E}
    (adapts : Adapts workerId current turns handed body)
    (none : body.held = [])
    (continues : ∀ message, current = some message →
      workerId ∈ message.workers)
    (next : Option RescaleMessage) : Adapts workerId next
      ([] : List (Turn K V T E)) [] body := by
  cases body with
  | logic running state =>
      intro _ turn member
      cases member
  | distributor partitioner running =>
      obtain ⟨connected, belongs, progress⟩ := adapts
      refine ⟨connected, ?_, ?_⟩
      · intro workerSet version phase
        cases belongs workerSet version phase with
        | inl member => exact .inl member
        | inr new =>
            obtain ⟨message, isCurrent, rfl⟩ := new
            exact .inl (continues message isCurrent)
      · intro message _
        cases phase : running.router.routerPhase with
        | settled workerSet version => exact .untouched phase (by simp)
        | busy old trigger =>
            simp [Body.held, Distributor.held, phase, RouterPhase.held] at none

variable [DecidableEq K]

theorem Adapts.report {body : Body K V T S E}
    (adapts : Adapts workerId current turns handed body)
    (report : Report K S) :
    Adapts workerId current turns handed (body.takeReport report) := by
  cases body with
  | logic running state => exact adapts
  | distributor partitioner running =>
      exact adapts.of_keeps (takeReport_keeps running report)

variable [MaybeTime T]

theorem Adapts.ran {before after : Body K V T S E} {call : Call E}
    {taken : Option (Message K V T)} {output : List (Message K V T)}
    {written : Option Bytes} {turn : Turn K V T E}
    (adapts : Adapts workerId current turns handed before)
    (consistent : before.Consistent)
    (isCurrent : ∀ message,
      .rescale message ∈ taken ∨ .rescale message ∈ before.held →
        current = some message)
    (ran : Ran workerId call before taken after output written)
    (isTaken : turn.taken = taken) :
    Adapts workerId current (turns ++ [turn]) (handed ++ output) after := by
  cases ran with
  | @logic running state =>
      intro forwards later member message counted took
      rw [List.mem_append]
      cases List.mem_append.mp member with
      | inl earlier =>
          exact .inl (adapts forwards later earlier message counted took)
      | inr last =>
          obtain rfl := List.mem_singleton.mp last
          refine .inr (List.mem_of_mem_filter (p := Message.isCounted) ?_)
          rw [running.counted_output, if_pos forwards, ← isTaken, took]
          simp [counted]
  | @distributor partitioner running later _ _ stages =>
      have current' : running.Current current taken.toList := by
        intro message member
        exact isCurrent message (by simpa [Body.held] using member)
      obtain ⟨connected, belongs, progress⟩ :=
        stages.tracks consistent current'
      refine ⟨connected adapts.connected, belongs adapts.belongs, ?_⟩
      intro message same
      have next := progress message same handed _
        (adapts.progress message same)
      have any : (turns ++ [turn]).any Turn.takesRescale =
          (turns.any Turn.takesRescale ||
            taken.toList.any fun taken => taken.rescale?.isSome) := by
        rw [List.any_append]
        cases taken <;> simp [Turn.takesRescale, isTaken]
      rw [any]
      exact next

end

namespace Worker

variable {graph : Graph K V T S E} {worker next : Worker K V T S E}
  {workerId : WorkerId}

/-- Every rescale message is the one of the current procedure. -/
theorem Exclusive.current {procedure : Procedure} {message : RescaleMessage}
    (isProcedure : worker.procedure = some procedure)
    (same : (Message.rescale message : Message K V T) = procedure.message) :
    worker.current = some message := by
  rw [Worker.current, isProcedure]
  exact Procedure.rescale?_of_message same

theorem Adapts.begin (adapts : worker.Adapts graph workerId)
    (quiet : worker.strongCount graph ≤ 1)
    (continues : worker.continues workerId) (procedure : Procedure) :
    (worker.begin graph procedure).Adapts graph workerId := by
  intro operator inGraph
  apply (adapts operator inGraph).start
    (strongCount_le_one.mp quiet operator inGraph).2
  intro message isCurrent
  obtain ⟨before, isBefore, same⟩ := Option.bind_eq_some_iff.mp isCurrent
  cases before with
  | reconfig current =>
      obtain rfl := Option.some.inj same
      simpa [Worker.continues, isBefore] using continues
  | snapshot => cases same
  | suspend => cases same

variable [DecidableEq K] [MaybeTime T] [LT T] [DecidableLT T]

theorem Adapts.step (adapts : worker.Adapts graph workerId)
    (sound : worker.Sound graph) {event : Event K V T S E}
    (allowed : worker.allowed graph workerId event)
    (stepped : worker.act graph workerId event = .ok next) :
    next.Adapts graph workerId := by
  cases event with
  | command procedure =>
      obtain rfl := Except.ok.inj stepped
      exact adapts.begin allowed.1 allowed.2 procedure
  | step operator call =>
      simp only [Worker.act] at stepped
      split at stepped
      next => simp at stepped
      next result ran =>
        obtain rfl := Except.ok.inj stepped
        intro other otherIn
        simp only [Worker.hand, Worker.install]
        by_cases same : other = operator
        · subst same
          have consistent := (sound.wired other otherIn).consistent
          have body := (StandardOperator.step_ran consistent ran).1
          simp only [Function.update_self]
          refine (adapts other otherIn).ran consistent ?_ body rfl
          intro message member
          cases member with
          | inl taken =>
              obtain ⟨channel, inRange, sent⟩ :=
                sound.wired.taken_sent otherIn ran taken rfl
              obtain ⟨procedure, isProcedure, same⟩ :=
                sound.exclusive.sent sound.linked otherIn inRange rfl sent
              exact Exclusive.current isProcedure same
          | inr held =>
              obtain ⟨procedure, isProcedure, same⟩ :=
                sound.exclusive other otherIn _ rfl (.inr held)
              exact Exclusive.current isProcedure same
        · simp only [Function.update_of_ne same]
          exact adapts other otherIn
  | deliver operator remote message =>
      obtain rfl := Except.ok.inj stepped
      intro other otherIn
      have before := adapts other otherIn
      simp only [Function.update_apply]
      split
      next same => subst same; exact before
      next => exact before
  | report operator report =>
      obtain rfl := Except.ok.inj stepped
      intro other otherIn
      have before := adapts other otherIn
      simp only [Function.update_apply]
      split
      next same => subst same; exact before.report report
      next => exact before

omit [DecidableEq K] [MaybeTime T] [LT T] [DecidableLT T] in
theorem Adapts.execute {context : BuildContext}
    (built : graph.execute context = .ok worker) :
    worker.Adapts graph context.workerId := by
  obtain ⟨operators, procedure, persisted, logs⟩ := execute_eq_ok built
  intro operator inGraph
  rw [logs, operators]
  simp only [Log.start, Graph.intoRunnable]
  cases graph.kind operator with
  | logic running initial =>
      intro _ turn member
      cases member
  | distribute partitioner =>
      refine ⟨?_, ?_, ?_⟩
      · intro other
        simp [Distributor.fresh, MessageRouter.new, MessageRouter.routerPhase,
          RouterPhase.connects]
      · intro workerSet version phase
        obtain ⟨rfl, rfl⟩ := RouterPhase.settled.inj phase
        exact .inl context.listed
      · intro message isCurrent
        simp [Worker.current, procedure] at isCurrent

end Worker

/-! ### The end of a reconfiguration -/

theorem Turn.Served.taken_rescale {channels : Nat} {turn : Turn K V T E}
    (served : turn.Served channels) {channel : Nat}
    (inRange : channel < channels) {message : RescaleMessage}
    (left : .rescale message ∈ turn.left channel) :
    turn.taken = some (.rescale message) := by
  cases served with
  | @one other queued linked isLeft unmarked returns =>
      rw [isLeft, Function.update_apply] at left
      split at left
      next =>
        obtain rfl := List.mem_singleton.mp left
        cases taken : turn.taken with
        | none => simp [taken, plain, Message.epoch?] at returns
        | some got =>
            rw [taken] at returns
            have kept : plain [Message.rescale (K := K) (V := V) (T := T)
              message] = [.rescale message] := rfl
            rw [kept, Option.toList_some] at returns
            have member : .rescale message ∈ plain [got] :=
              returns ▸ List.mem_cons_self
            have same := List.mem_singleton.mp (List.mem_of_mem_filter member)
            rw [same]
      next => cases left
  | idle isLeft nothing => simp [isLeft] at left
  | every isMarker isLeft taken =>
      rw [isLeft channel inRange] at left
      obtain rfl := List.mem_singleton.mp left
      cases isMarker

namespace Worker

variable {graph : Graph K V T S E} {worker : Worker K V T S E}
  {workerId : WorkerId}

/-- With no rescale message left in the graph every operator has taken one and
has handed one on: by the order of the operators. -/
theorem took_rescale (sound : worker.Sound graph)
    (adapts : worker.Adapts graph workerId) {message : RescaleMessage}
    (isReconfig : worker.procedure = some (.reconfig message))
    (quiet : ∀ operator < graph.size, Quiet (worker.operators operator))
    (operator : Nat) (inGraph : operator < graph.size) :
    (∃ turn ∈ (worker.logs operator).turns,
      turn.taken = some (.rescale message)) ∧
    ((graph.kind operator).forwards = true →
      .rescale message ∈ (worker.logs operator).handed) := by
  induction operator using Nat.strongRecOn with
  | ind operator ih =>
      obtain ⟨channels, -, forwards, split, served⟩ :=
        sound.wired operator inGraph
      have positive : 0 < (graph.upstream operator).length :=
        List.length_pos_iff.mpr (graph.linked operator inGraph)
      have sent : .rescale message ∈ (worker.logs operator).sent 0 := by
        have isSource : (graph.upstream operator)[0]? =
            some (graph.upstream operator)[0] := by simp [positive]
        refine List.mem_of_mem_filter (p := Message.isCounted) ?_
        rw [sound.linked operator inGraph 0 _ isSource]
        cases source : (graph.upstream operator)[0] with
        | none => simp [issued, isReconfig, Procedure.message]
        | some source' =>
            have member := source ▸ List.getElem_mem positive
            have earlier := graph.earlier operator inGraph source' member
            have handed := (ih source' earlier (by omega)).2
              (graph.forwards operator inGraph source' member)
            exact List.mem_filter.mpr ⟨handed, rfl⟩
      have taken : ∃ turn ∈ (worker.logs operator).turns,
          turn.taken = some (.rescale message) := by
        rw [split 0, List.mem_append] at sent
        cases sent with
        | inl received =>
            obtain ⟨turn, member, left⟩ := List.mem_flatMap.mp received
            exact ⟨turn, member,
              (served turn member).taken_rescale positive left⟩
        | inr queued =>
            have counted : .rescale message ∈
                ((worker.operators operator).input.queue 0).filter
                  Message.isCounted := List.mem_filter.mpr ⟨queued, rfl⟩
            rw [(quiet operator inGraph).1 0] at counted
            cases counted
      refine ⟨taken, fun isForwarding => ?_⟩
      obtain ⟨turn, member, took⟩ := taken
      have adapted := adapts operator inGraph
      have none := (quiet operator inGraph).2
      rw [← forwards] at isForwarding
      cases body : (worker.operators operator).body with
      | logic running state =>
          rw [body] at adapted isForwarding
          exact adapted isForwarding turn member _ rfl took
      | distributor partitioner running =>
          rw [body] at adapted none
          have isCurrent : worker.current = some message := by
            rw [Worker.current, isReconfig]
            rfl
          have reached : (worker.logs operator).turns.any
              Turn.takesRescale = true :=
            List.any_eq_true.mpr ⟨turn, member, by
              simp [Turn.takesRescale, took, Message.rescale?]⟩
          have progress := adapted.progress message isCurrent
          rw [reached] at progress
          generalize (worker.logs operator).handed = handed at progress ⊢
          cases progress with
          | first busy _ =>
              simp [Body.held, Distributor.held, busy, RouterPhase.held] at none
          | past _ isSplit _ _ => simp [isSplit]

structure Reconfigured (workerId : WorkerId) (message : RescaleMessage)
    (distributor : Distributor K V T) (handed : List (Message K V T)) :
    Prop where
  router : distributor.router = .normal ⟨message.workers, message.version⟩
  remotes : ∀ other, other ∈ distributor.remotes ↔
    other ∈ message.workers ∧ other ≠ workerId
  /-- Once the first copy is forwarded no other copy makes a key move. -/
  moved : ∃ earlier later, handed = earlier ++ .rescale message :: later ∧
    (∀ other, .rescale other ∉ earlier) ∧ ∀ key, .collect key ∉ later

theorem reconfigured (sound : worker.Sound graph)
    (adapts : worker.Adapts graph workerId) {message : RescaleMessage}
    (isReconfig : worker.procedure = some (.reconfig message))
    (exits : worker.strongCount graph ≤ 1) {operator : Nat}
    (inGraph : operator < graph.size) {partitioner : WorkerPartitioner K}
    {distributor : Distributor K V T}
    (body : (worker.operators operator).body =
      .distributor partitioner distributor) :
    Reconfigured workerId message distributor
      (worker.logs operator).handed := by
  have quiet := strongCount_le_one.mp exits
  have none := (quiet operator inGraph).2
  obtain ⟨turn, member, took⟩ :=
    (took_rescale sound adapts isReconfig quiet operator inGraph).1
  have isCurrent : worker.current = some message := by
    rw [Worker.current, isReconfig]
    rfl
  have reached : (worker.logs operator).turns.any Turn.takesRescale = true :=
    List.any_eq_true.mpr ⟨turn, member, by
      simp [Turn.takesRescale, took, Message.rescale?]⟩
  have adapted := adapts operator inGraph
  rw [body] at adapted none
  obtain ⟨connected, -, progress⟩ := adapted
  have progress := progress message isCurrent
  rw [reached] at progress
  generalize (worker.logs operator).handed = handed at progress ⊢
  cases progress with
  | first busy _ =>
      simp [Body.held, Distributor.held, busy, RouterPhase.held] at none
  | past phase split fresh still =>
      cases phase with
      | inr busy =>
          simp [Body.held, Distributor.held, busy, RouterPhase.held] at none
      | inl settled =>
          refine ⟨RouterPhase.router_of_settled settled, fun other => ?_,
            ⟨_, _, split, fresh, still⟩⟩
          rw [connected, settled]
          rfl

end Worker

/-! ### Copies of the message -/

section

variable [DecidableEq K] {thisWorker : WorkerId}
  {partitioner : WorkerPartitioner K} {distributor : Distributor K V T}
  {old : IndexSet WorkerId} {trigger : RescaleMessage}

omit [DecidableEq K] in
theorem addRemotes_known {remotes : Remotes T} {workers : List WorkerId}
    (known : ∀ worker ∈ workers, worker ≠ thisWorker → worker ∈ remotes) :
    Distributor.addRemotes remotes workers thisWorker = remotes := by
  induction workers with
  | nil => rfl
  | cons first rest ih =>
      have present : ¬(first ∉ remotes ∧ first ≠ thisWorker) := fun missing =>
        missing.1 (known first List.mem_cons_self missing.2)
      rw [Distributor.addRemotes, List.foldl_cons, if_neg present]
      exact ih fun worker member => known worker (List.mem_cons_of_mem _ member)

omit [DecidableEq K] in
theorem handleRescaleMessage_busy (partitioner : WorkerPartitioner K)
    (busy : distributor.router.routerPhase = .busy old trigger)
    (connected : distributor.Connected thisWorker) :
    distributor.handleRescaleMessage trigger partitioner thisWorker =
      (distributor, {}) := by
  have known : ∀ worker ∈ trigger.workers.items, worker ≠ thisWorker →
      worker ∈ distributor.remotes := fun worker member different =>
    (connected worker).mpr (by rw [busy]; exact ⟨.inr member, different⟩)
  have kept : distributor.router.handleRescale trigger partitioner =
      (distributor.router, []) := by
    cases isRouter : distributor.router with
    | normal router => rw [isRouter] at busy; cases busy
    | interrogate router | collect router | finished router => rfl
  simp only [Distributor.handleRescaleMessage, kept, addRemotes_known known]

variable [MaybeTime T] [LT T] [DecidableLT T]

theorem runLocal_copy {input next : Input K V T}
    {received : Distributor K V T} {effects : Effects K V T}
    (busy : distributor.router.routerPhase = .busy old trigger)
    (connected : distributor.Connected thisWorker)
    (ran : distributor.runLocal input partitioner thisWorker =
      .ok (received, next, some (.rescale trigger), effects)) :
    distributor.localBarrier = false ∧ received = distributor ∧
      effects = {} := by
  have dropped := handleRescaleMessage_busy partitioner busy connected
  simp only [Distributor.runLocal] at ran
  split at ran
  next => simp at ran
  next free =>
    split at ran
    next => simp at ran
    next => simp at ran
    next message rest arrived =>
      split at ran
      next => simp at ran
      next result handled =>
        obtain ⟨rfl, -, same, rfl⟩ := by simpa using ran
        subst same
        simp only [Distributor.receiveLocal, dropped] at handled
        obtain ⟨rfl, rfl⟩ := by simpa using handled
        exact ⟨by simpa using free, rfl, rfl⟩

/-- A distributor which is busy drops a copy: its call goes as it goes where
nothing comes. -/
theorem run_copy {input : Input K V T} {mail : Mailbox K V T} {clones : Nat}
    {result : RunResult K V T}
    (consistent : distributor.router.Consistent partitioner)
    (busy : distributor.router.routerPhase = .busy old trigger)
    (connected : distributor.Connected thisWorker)
    (ran : distributor.run input mail partitioner thisWorker clones =
      .ok result) (took : result.taken = some (.rescale trigger)) :
    distributor.run .newUnlinked mail partitioner thisWorker clones =
      .ok { result with input := .newUnlinked, taken := none } := by
  simp only [Distributor.run] at ran ⊢
  split at ran
  next => simp at ran
  next heard fromRemotes hearing =>
    have keeps := (Distributor.receiveRemotes_keeps consistent hearing).1
    have still : heard.Connected thisWorker := fun worker => by
      rw [keeps.clients, keeps.phase]
      exact connected worker
    split at ran
    next => simp at ran
    next received next taken fromLocal receiving =>
      split at ran
      next => simp at ran
      next last ending cycling =>
        obtain rfl := Except.ok.inj ran
        obtain rfl : taken = some (.rescale trigger) := took
        obtain ⟨free, rfl, rfl⟩ :=
          runLocal_copy (keeps.phase.trans busy) still receiving
        have idle : received.runLocal .newUnlinked partitioner thisWorker =
            .ok (received, .newUnlinked, none, {}) := by
          rw [Distributor.runLocal, free]
          rfl
        simp only [idle, cycling]

namespace Worker

variable {graph : Graph K V T S E} {worker : Worker K V T S E}
  {workerId : WorkerId}

/-- A copy of the message which a distributor takes before it is back to normal
does nothing: the call goes as it goes where no message comes. -/
def DropsCopies (graph : Graph K V T S E) (workerId : WorkerId)
    (worker : Worker K V T S E) : Prop :=
  ∀ operator < graph.size, ∀ partitioner distributor,
    (worker.operators operator).body = .distributor partitioner distributor →
    ∀ old trigger, distributor.router.routerPhase = .busy old trigger →
    ∀ call stepped copy,
      (worker.operators operator).step workerId call = .ok stepped →
      stepped.taken = some (.rescale copy) →
      { worker.operators operator with input := .newUnlinked }.step workerId
          call =
        .ok { stepped with
          operator := { stepped.operator with input := .newUnlinked }
          taken := none }

theorem Adapts.dropsCopies (adapts : worker.Adapts graph workerId)
    (sound : worker.Sound graph) : worker.DropsCopies graph workerId := by
  intro operator inGraph partitioner distributor body old trigger busy call
    stepped copy ran took
  have wired := sound.wired operator inGraph
  -- the copy is of the message the router is working on
  have same : copy = trigger := by
    obtain ⟨channel, inRange, sent⟩ :=
      sound.wired.taken_sent inGraph ran took rfl
    obtain ⟨procedure, isProcedure, isCopy⟩ :=
      sound.exclusive.sent sound.linked inGraph inRange rfl sent
    have held : .rescale trigger ∈ (worker.operators operator).body.held := by
      rw [body]
      refine Distributor.mem_held.mpr (.inr (.inr ?_))
      simp [busy, RouterPhase.held]
    obtain ⟨other, isOther, isTrigger⟩ :=
      sound.exclusive operator inGraph _ rfl (.inr held)
    have one := Exclusive.current isProcedure isCopy
    have two := Exclusive.current isOther isTrigger
    exact Option.some.inj (one.symm.trans two)
  subst same
  have adapted := adapts operator inGraph
  have consistent := wired.consistent
  rw [body] at adapted consistent
  simp only [StandardOperator.step, body] at ran ⊢
  split at ran
  next => simp at ran
  next result runs =>
    obtain rfl := Except.ok.inj ran
    rw [run_copy consistent busy adapted.connected runs took]

end Worker

end

/-! ### All workers together -/

abbrev Cluster (K V T S E : Type) := WorkerId → Worker K V T S E

namespace Cluster

variable [DecidableEq K] [MaybeTime T] [LT T] [DecidableLT T]

/-- One worker does something; what reaches it over the network may be
anything. -/
def step (graph : Graph K V T S E) (cluster : Cluster K V T S E)
    (event : WorkerId × Worker.Event K V T S E) :
    Except RunPanic (Cluster K V T S E) :=
  match (cluster event.1).act graph event.1 event.2 with
  | .error panic => .error panic
  | .ok next => .ok (Function.update cluster event.1 next)

def allowed (graph : Graph K V T S E) (cluster : Cluster K V T S E)
    (event : WorkerId × Worker.Event K V T S E) : Prop :=
  (cluster event.1).allowed graph event.1 event.2

instance (graph : Graph K V T S E) (cluster : Cluster K V T S E)
    (event : WorkerId × Worker.Event K V T S E) :
    Decidable (cluster.allowed graph event) :=
  inferInstanceAs (Decidable ((cluster event.1).allowed graph event.1 event.2))

theorem invariant {graph : Graph K V T S E} {start cluster : Cluster K V T S E}
    (holds : WorkerId → Worker K V T S E → Prop)
    (initial : ∀ worker, holds worker (start worker))
    (preserved : ∀ worker {state next : Worker K V T S E}
      {event : Worker.Event K V T S E}, holds worker state →
      state.allowed graph worker event →
      state.act graph worker event = .ok next → holds worker next)
    (run : Reaches (step graph) (allowed graph) start cluster)
    (worker : WorkerId) : holds worker (cluster worker) := by
  refine run.invariant (fun cluster => ∀ worker, holds worker (cluster worker))
    initial ?_ worker
  intro before event after _ before' permitted stepped other
  simp only [step] at stepped
  split at stepped
  next => simp at stepped
  next next' moved =>
    obtain rfl := Except.ok.inj stepped
    rw [Function.update_apply]
    split
    next same => exact same ▸ preserved event.1 (before' event.1) permitted moved
    next => exact before' other

end Cluster

/-- When the workers of the new set have returned from a reconfiguration, each
of their distributors works normally with exactly that set and version and is
connected with its other workers.  However many copies of the message it gets,
they make no key move: until it is back to normal it drops them, and the cycle
which a later one starts collects no key. -/
theorem reconfiguration_agrees [DecidableEq K] [MaybeTime T] [LT T]
    [DecidableLT T] {graph : Graph K V T S E}
    {context : WorkerId → BuildContext}
    (own : ∀ worker, (context worker).workerId = worker)
    {start cluster : Cluster K V T S E}
    (built : ∀ worker, graph.execute (context worker) = .ok (start worker))
    (run : Reaches (Cluster.step graph) (Cluster.allowed graph) start cluster) :
    (∀ worker, (cluster worker).DropsCopies graph worker) ∧
    ∀ message : RescaleMessage,
      (∀ worker ∈ message.workers,
        (cluster worker).procedure = some (.reconfig message) ∧
          (cluster worker).strongCount graph ≤ 1) →
      ∀ worker ∈ message.workers, ∀ operator < graph.size,
        ∀ partitioner distributor,
        ((cluster worker).operators operator).body =
            .distributor partitioner distributor →
          Worker.Reconfigured worker message distributor
            ((cluster worker).logs operator).handed := by
  have both (worker : WorkerId) : (cluster worker).Sound graph ∧
      (cluster worker).Adapts graph worker := by
    refine Cluster.invariant
      (fun worker state => state.Sound graph ∧ state.Adapts graph worker)
      ?_ ?_ run worker
    · intro worker
      have adapts := Worker.Adapts.execute (built worker)
      rw [own worker] at adapts
      exact ⟨.execute (built worker), adapts⟩
    · intro worker state next event holds allowed stepped
      exact ⟨holds.1.step allowed stepped,
        holds.2.step holds.1 allowed stepped⟩
  refine ⟨fun worker => (both worker).2.dropsCopies (both worker).1, ?_⟩
  intro message returned worker member operator inGraph partitioner distributor
    body
  obtain ⟨isReconfig, exits⟩ := returned worker member
  exact Worker.reconfigured (both worker).1 (both worker).2 isReconfig exits inGraph body

/-! Two branches of one stream which are joined in front of a distributor.  The
second copy of the message comes when the first one has been worked off; one of
the two workers is new. -/

def rejoined : Graph Nat Nat Nat (List Nat) Unit where
  size := 4
  name operator := toString operator
  operatorId operator := operator
  kind
    | 0 => .logic Library.split []
    | 1 => .logic Library.split []
    | 2 => .distribute fun key workers => workers.items.getD (key % 2) 0
    | _ => .logic (Library.statelessSink
        fun message values => values ++ [message.value]) []
  upstream
    | 0 => [none]
    | 1 => [some 0]
    | 2 => [some 0, some 1]
    | _ => [some 2]
  carries _ _ _ := true
  linked := by decide
  earlier := by
    intro operator inGraph source member
    match operator with
    | 0 => simp at member
    | 1 => simp at member; omega
    | 2 => simp at member; omega
    | more + 3 => simp at member; omega
  forwards := by
    intro operator inGraph source member
    match operator with
    | 0 => simp at member
    | 1 => simp at member; subst member; rfl
    | 2 =>
        simp at member
        obtain rfl | rfl := member <;> rfl
    | more + 3 => simp at member; subst member; rfl

/-- Worker 1 is built for the set it joins, every other one for itself. -/
def joining (worker : WorkerId) : BuildContext where
  workerId := worker
  workerIds := if worker = 1 then IndexSet.ofList [0, 1]
    else IndexSet.ofList [worker]
  listed := by
    split
    next same => simp [same]
    next => simp

def joiningStart : Cluster Nat Nat Nat (List Nat) Unit := fun worker =>
  { operators := rejoined.intoRunnable (joining worker)
    procedure := none
    persisted := []
    logs := fun operator =>
      Log.start (rejoined.intoRunnable (joining worker) operator) }

def joined : RescaleMessage := ⟨IndexSet.ofList [0, 1], 1⟩

/-- What one of the two workers does, and hears from the other one. -/
def reconfigTrace (other : WorkerId) :
    List (Worker.Event Nat Nat Nat (List Nat) Unit) :=
  let schedule := fun operator => .step operator ⟨(), 0⟩
  [.command (.reconfig joined), schedule 0, schedule 2, schedule 2,
    .deliver 2 other (.upgrade 1), .deliver 2 other (.ackUpgrade 1),
    schedule 2, schedule 2, schedule 1, schedule 2, schedule 2, schedule 2,
    schedule 3, schedule 3, schedule 3, schedule 3]

@[irreducible] def joinedCluster : Cluster Nat Nat Nat (List Nat) Unit :=
  replay (Cluster.step rejoined) joiningStart
    ((reconfigTrace 1).map (Prod.mk 0) ++ (reconfigTrace 0).map (Prod.mk 1))

/-- Worker 0 with the second copy in front of its distributor, which is busy
with the first one. -/
@[irreducible] def crossedCluster : Cluster Nat Nat Nat (List Nat) Unit :=
  replay (Cluster.step rejoined) joiningStart
    ([.command (.reconfig joined), .step 0 ⟨(), 0⟩, .step 2 ⟨(), 0⟩,
      .step 1 ⟨(), 0⟩].map (Prod.mk 0))

def takesCopy (worker : Worker Nat Nat Nat (List Nat) Unit) : Bool :=
  match (worker.operators 2).body, (worker.operators 2).step 0 ⟨(), 0⟩ with
  | .distributor _ distributor, .ok stepped =>
      match distributor.router.routerPhase with
      | .busy _ trigger => decide (trigger = joined ∧
          stepped.taken.bind Message.rescale? = some joined)
      | .settled _ _ => false
  | _, _ => false

theorem joinedCluster_agrees :
    Reaches (Cluster.step rejoined) (Cluster.allowed rejoined) joiningStart
        joinedCluster ∧
      (∀ worker ∈ joined.workers, ∀ operator < rejoined.size,
        ∀ partitioner distributor,
        ((joinedCluster worker).operators operator).body =
            .distributor partitioner distributor →
          Worker.Reconfigured worker joined distributor
            ((joinedCluster worker).logs operator).handed) ∧
      (crossedCluster 0).DropsCopies rejoined 0 ∧
      takesCopy (crossedCluster 0) = true := by
  have built : ∀ worker, rejoined.execute (joining worker) =
      .ok (joiningStart worker) := fun _ => rfl
  have run : Reaches (Cluster.step rejoined) (Cluster.allowed rejoined)
      joiningStart joinedCluster := by
    unfold joinedCluster
    exact Follows.reaches _ .refl (by decide +kernel)
  have returned : ∀ worker ∈ joined.workers,
      (joinedCluster worker).procedure = some (.reconfig joined) ∧
        (joinedCluster worker).strongCount rejoined ≤ 1 := by
    have both : ∀ worker ∈ joined.workers.items,
        (joinedCluster worker).procedure = some (.reconfig joined) ∧
          (joinedCluster worker).strongCount rejoined ≤ 1 := by
      decide +kernel
    exact both
  have crossed : Reaches (Cluster.step rejoined) (Cluster.allowed rejoined)
      joiningStart crossedCluster := by
    unfold crossedCluster
    exact Follows.reaches _ .refl (by decide +kernel)
  exact ⟨run, (reconfiguration_agrees (fun _ => rfl) built run).2 joined
    returned, (reconfiguration_agrees (fun _ => rfl) built crossed).1 0,
    by decide +kernel⟩

end Malstrom.Stream
