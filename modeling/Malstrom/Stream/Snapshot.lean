import Mathlib.Data.List.Induction
import Malstrom.Channels.Alignment
import Malstrom.Stream.Library
import Malstrom.Stream.Wiring

namespace Malstrom.Stream

open Data Channels Keyed Operators

variable {K V T S E : Type}

/-! What a worker has done when the loop of a snapshot has ended. -/

def Turn.takesBarrier (turn : Turn K V T E) : Bool :=
  turn.taken.any Message.isBarrier

namespace Logic

def replay (logic : Logic K V T S E) (state : S)
    (turns : List (Turn K V T E)) : S :=
  turns.foldl (fun state turn =>
    logic.advance turn.call.external state turn.taken) state

/-- Each call has written what the logic persists in it. -/
def Records (logic : Logic K V T S E) (state : S)
    (turns : List (Turn K V T E)) : Prop :=
  ∀ before turn after, turns = before ++ turn :: after →
    turn.written =
      logic.writes turn.call.external (logic.replay state before) turn.taken

variable {logic : Logic K V T S E} {state : S} {turns : List (Turn K V T E)}
  {turn : Turn K V T E}

@[simp] theorem replay_append (more : List (Turn K V T E)) :
    logic.replay state (turns ++ more) =
      logic.replay (logic.replay state turns) more :=
  List.foldl_append

theorem Records.snoc (records : logic.Records state turns)
    (written : turn.written = logic.writes turn.call.external
      (logic.replay state turns) turn.taken) :
    logic.Records state (turns ++ [turn]) := by
  intro before middle after split
  cases after using List.reverseRecOn with
  | nil =>
      obtain ⟨rfl, same⟩ := List.append_inj' split rfl
      obtain rfl := List.singleton_inj.mp same
      exact written
  | append_singleton after last =>
      rw [← List.cons_append, ← List.append_assoc] at split
      exact records before middle after (List.append_inj' split rfl).1

theorem Records.silent (records : logic.Records state turns)
    {before after : List (Turn K V T E)}
    (split : turns = before ++ turn :: after)
    (other : turn.takesBarrier = false) : turn.written = none := by
  rw [records before turn after split]
  cases taken : turn.taken with
  | none => rfl
  | some message =>
      have : message.isBarrier = false := by
        simpa [Turn.takesBarrier, taken] using other
      simp [writes, persisted, this]

end Logic

/-- The barriers which a call has taken are those which have left any one of
the channels. -/
theorem Turn.Served.barriers {channels : Nat} {turn : Turn K V T E}
    (served : turn.Served channels) {channel : Nat}
    (inRange : channel < channels) :
    (turn.left channel).countP Message.isBarrier =
      turn.takesBarrier.toNat := by
  have unmarked : ∀ message : Message K V T, message.isMarker = false →
      message.isBarrier = false := by
    intro message unmarked
    cases message <;> simp_all [Message.isMarker, Message.isBarrier]
  cases served with
  | @one other message linked left plainOne returns =>
      have none : turn.takesBarrier = false := by
        cases taken : turn.taken with
        | none => simp [takesBarrier, taken]
        | some got =>
            have same : plain [got] = plain [message] := by
              simpa [taken] using returns
            have notMarker := unmarked_of_plain plainOne same
            simpa [takesBarrier, taken] using
              unmarked got (notMarker got (by simp))
      rw [left, none, Function.update_apply]
      split
      next => simp [unmarked message plainOne]
      next => rfl
  | idle left nothing => simp [left, nothing, takesBarrier]
  | every isMarker left taken =>
      simp only [left channel inRange, takesBarrier, taken, Option.any_some,
        List.countP_singleton]
      rename_i marker
      cases marker.isBarrier <;> rfl

/-- A call which takes the barrier takes it off every channel. -/
theorem Turn.Served.left_barrier {channels : Nat} {turn : Turn K V T E}
    (served : turn.Served channels) {channel : Nat}
    (inRange : channel < channels) (taken : turn.taken = some .absBarrier) :
    turn.left channel = [.absBarrier] := by
  cases served with
  | one linked left unmarked returns =>
      rw [taken, Option.toList_some] at returns
      have notMarker := unmarked_of_plain unmarked returns
      exact absurd (notMarker _ List.mem_cons_self) (by simp [Message.isMarker])
  | idle left nothing => rw [nothing] at taken; cases taken
  | every isMarker left isTaken =>
      obtain rfl := Option.some.inj (taken.symm.trans isTaken)
      exact left channel inRange

theorem Turn.takesBarrier_iff {turn : Turn K V T E} :
    turn.takesBarrier = true ↔ turn.taken = some .absBarrier := by
  cases taken : turn.taken with
  | none => simp [takesBarrier, taken]
  | some message =>
      cases message <;> simp [takesBarrier, taken, Message.isBarrier]

theorem Log.barriers_received {log : Log K V T S E} {channels channel : Nat}
    (served : ∀ turn ∈ log.turns, turn.Served channels)
    (inRange : channel < channels) :
    (log.received channel).countP Message.isBarrier =
      log.turns.countP Turn.takesBarrier := by
  unfold received
  revert served
  induction log.turns with
  | nil => exact fun _ => rfl
  | cons turn rest ih =>
      intro served
      rw [List.flatMap_cons, List.countP_append, List.countP_cons,
        ih fun later member => served later (List.mem_cons_of_mem _ member),
        (served turn List.mem_cons_self).barriers inRange]
      cases turn.takesBarrier <;> simp [Nat.add_comm]

/-! ### What each operator remembers -/

/-- An operator has handed on the barriers it does not hold, is in the state
its calls lead to, and has written what they persist. -/
structure Kept (graph : Graph K V T S E) (position : Nat)
    (operator : StandardOperator K V T S E) (log : Log K V T S E)
    (persisted : List (OperatorId × Bytes)) : Prop where
  barriers : operator.body.forwards = true →
    log.turns.countP Turn.takesBarrier =
      log.handed.countP Message.isBarrier + operator.body.pending.toNat
  states : match graph.kind position with
    | .logic logic _ => ∃ state, log.origin = .logic logic state ∧
        operator.body = .logic logic (logic.replay state log.turns) ∧
        logic.Records state log.turns
    | .distribute partitioner => (∃ distributor,
        operator.body = .distributor partitioner distributor) ∧
        ∀ turn ∈ log.turns, turn.written = none
  written : (persisted.filter fun write =>
      decide (write.1 = graph.operatorId position)).map Prod.snd =
    log.turns.filterMap Turn.written

def Worker.Kept (graph : Graph K V T S E) (worker : Worker K V T S E) : Prop :=
  ∀ operator < graph.size, Stream.Kept graph operator
    (worker.operators operator) (worker.logs operator) worker.persisted

section

variable {graph : Graph K V T S E} {position : Nat}
  {operator : StandardOperator K V T S E} {log : Log K V T S E}
  {persisted : List (OperatorId × Bytes)}

theorem Kept.start (kept : Kept graph position operator log persisted)
    (quiet : Worker.Quiet operator) :
    Kept graph position operator (Log.start operator) [] := by
  refine ⟨fun _ => ?_, ?_, rfl⟩
  · have free : operator.body.pending = false := by
      cases body : operator.body with
      | logic running state => rfl
      | distributor partitioner running =>
          have none : running.held = [] := by
            simpa [body, Body.held] using quiet.2
          cases held : running.localBarrier with
          | false => exact held
          | true => simp [Distributor.held, held] at none
    simp [Log.start, free]
  · have states := kept.states
    split at states
    next logic initial _ =>
      obtain ⟨origin, -, body, -⟩ := states
      exact ⟨_, body, body, fun before turn after split => by
        simp [Log.start] at split⟩
    next partitioner _ =>
      exact ⟨states.1, by simp [Log.start]⟩

variable [DecidableEq K] [MaybeTime T] [LT T] [DecidableLT T]

theorem Kept.ran (kept : Kept graph position operator log persisted)
    (consistent : operator.body.Consistent) {workerId : WorkerId}
    {call : Call E} {stepped : Stepped K V T S E}
    (ran : operator.step workerId call = .ok stepped) :
    Kept graph position stepped.operator
      { log with
        turns := log.turns ++ [stepped.turn call operator.input]
        handed := log.handed ++ stepped.output }
      (persisted ++ stepped.written.toList.map fun state =>
        (graph.operatorId position, state)) := by
  have body := (StandardOperator.step_ran consistent ran).1
  constructor
  · intro forwards
    rw [body.forwards] at forwards
    have before := kept.barriers forwards
    have moved := body.barriers consistent forwards
    have taken : (stepped.turn call operator.input).takesBarrier.toNat =
        stepped.taken.toList.countP Message.isBarrier := by
      simp only [Turn.takesBarrier, Stepped.turn]
      cases stepped.taken with
      | none => rfl
      | some message => cases message <;> rfl
    have turns : (log.turns ++ [stepped.turn call operator.input]).countP
        Turn.takesBarrier = log.turns.countP Turn.takesBarrier +
          (stepped.turn call operator.input).takesBarrier.toNat := by
      rw [List.countP_append, List.countP_singleton]
      cases (stepped.turn call operator.input).takesBarrier <;> rfl
    rw [turns, List.countP_append]
    omega
  · have states := kept.states
    split at states
    next logic initial _ =>
      obtain ⟨state, origin, isBody, records⟩ := states
      rw [isBody] at body
      obtain ⟨after, -, wrote⟩ := body.of_logic
      refine ⟨state, origin, ?_, records.snoc wrote⟩
      rw [after]
      simp [Stepped.turn, Logic.replay]
    next partitioner _ =>
      obtain ⟨⟨distributor, isBody⟩, silent⟩ := states
      rw [isBody] at body
      obtain ⟨later, after, -, wrote⟩ := body.of_distributor
      refine ⟨⟨later, after⟩, ?_⟩
      intro turn member
      cases List.mem_append.mp member with
      | inl earlier => exact silent turn earlier
      | inr last =>
          obtain rfl := List.mem_singleton.mp last
          exact wrote
  · simp only [List.filter_append, List.map_append, kept.written,
      List.filterMap_append]
    cases wrote : stepped.written <;> simp [Stepped.turn, wrote]

end

namespace Worker

variable {graph : Graph K V T S E} {worker next : Worker K V T S E}

theorem Kept.execute {context : BuildContext}
    (built : graph.execute context = .ok worker) : worker.Kept graph := by
  obtain ⟨operators, procedure, persisted, logs⟩ := execute_eq_ok built
  intro operator inGraph
  rw [logs, operators, persisted]
  refine ⟨fun _ => ?_, ?_, rfl⟩
  · simp only [Log.start, Graph.intoRunnable]
    cases graph.kind operator <;> rfl
  · simp only [Log.start, Graph.intoRunnable]
    cases graph.kind operator with
    | logic logic initial =>
        exact ⟨initial, rfl, rfl, fun before turn after split => by
          simp at split⟩
    | distribute partitioner => exact ⟨⟨_, rfl⟩, by simp⟩

theorem Kept.hand (kept : worker.Kept graph) (source : Option Nat)
    (messages : List (Message K V T)) :
    (worker.hand graph source messages).Kept graph := by
  intro operator inGraph
  obtain ⟨barriers, states, written⟩ := kept operator inGraph
  exact ⟨barriers, states, written⟩

theorem Kept.begin (kept : worker.Kept graph)
    (quiet : worker.strongCount graph ≤ 1) (procedure : Procedure) :
    (worker.begin graph procedure).Kept graph := by
  apply Kept.hand
  intro operator inGraph
  exact (kept operator inGraph).start
    (strongCount_le_one.mp quiet operator inGraph)

variable [DecidableEq K] [MaybeTime T] [LT T] [DecidableLT T]

theorem Kept.install (kept : worker.Kept graph) (wired : worker.Wired graph)
    (distinct : ∀ one < graph.size, ∀ other < graph.size,
      graph.operatorId one = graph.operatorId other → one = other)
    {workerId : WorkerId} {operator : Nat} {call : Call E}
    {stepped : Stepped K V T S E} (inGraph : operator < graph.size)
    (ran : (worker.operators operator).step workerId call = .ok stepped) :
    (worker.install graph operator call stepped).Kept graph := by
  intro other otherIn
  by_cases same : other = operator
  · subst same
    have next := (kept other inGraph).ran (wired other inGraph).consistent ran
    simpa only [Worker.install, Function.update_self] using next
  · obtain ⟨barriers, states, written⟩ := kept other otherIn
    simp only [Worker.install, Function.update_of_ne same]
    refine ⟨barriers, states, ?_⟩
    have ids : graph.operatorId operator ≠ graph.operatorId other :=
      fun equal => same (distinct operator inGraph other otherIn equal).symm
    rw [← written, List.filter_append]
    simp [List.filter_map, Function.comp_def, ids]

omit [MaybeTime T] [LT T] [DecidableLT T] in
theorem Kept.report (kept : worker.Kept graph) (operator : Nat)
    (report : Report K S) :
    { worker with
      operators := Function.update worker.operators operator
        { worker.operators operator with
          body := (worker.operators operator).body.takeReport report } }.Kept
      graph := by
  intro other otherIn
  by_cases same : other = operator
  · subst same
    obtain ⟨barriers, states, written⟩ := kept other otherIn
    simp only [Function.update_self]
    refine ⟨by simpa using barriers, ?_, written⟩
    split at states
    next logic initial isLogic =>
      obtain ⟨state, origin, body, records⟩ := states
      exact ⟨state, origin, by rw [body]; rfl, records⟩
    next partitioner isDistributor =>
      obtain ⟨⟨distributor, body⟩, silent⟩ := states
      exact ⟨⟨_, by rw [body]; rfl⟩, silent⟩
  · simpa only [Function.update_of_ne same] using kept other otherIn

theorem Kept.step (kept : worker.Kept graph) (sound : worker.Sound graph)
    (distinct : ∀ one < graph.size, ∀ other < graph.size,
      graph.operatorId one = graph.operatorId other → one = other)
    {workerId : WorkerId} {event : Event K V T S E}
    (allowed : worker.allowed graph workerId event)
    (stepped : worker.act graph workerId event = .ok next) :
    next.Kept graph := by
  cases event with
  | command procedure =>
      obtain rfl := Except.ok.inj stepped
      exact kept.begin allowed.1 procedure
  | step operator call =>
      simp only [Worker.act] at stepped
      split at stepped
      next => simp at stepped
      next result ran =>
        obtain rfl := Except.ok.inj stepped
        exact (kept.install sound.wired distinct allowed ran).hand _ _
  | deliver operator remote message =>
      obtain rfl := Except.ok.inj stepped
      intro other otherIn
      have before := kept other otherIn
      simp only [Function.update_apply]
      split
      next same => subst same; exact ⟨before.1, before.2, before.3⟩
      next => exact before
  | report operator report =>
      obtain rfl := Except.ok.inj stepped
      exact kept.report operator report

end Worker

/-! ### The end of a snapshot -/

/-- The barrier has passed an operator in one call, after exactly the messages
sent before it on each channel, and the operator has written the state it was
in then. -/
structure Passed (graph : Graph K V T S E) (worker : Worker K V T S E)
    (operator : Nat) (before : List (Turn K V T E)) (turn : Turn K V T E)
    (after : List (Turn K V T E)) : Prop where
  split : (worker.logs operator).turns = before ++ turn :: after
  takes : turn.taken = some .absBarrier
  alone : ∀ other ∈ before ++ after, other.taken ≠ some .absBarrier
  served : ∀ turn ∈ (worker.logs operator).turns,
    turn.Served (graph.upstream operator).length
  cut : ∀ channel < (graph.upstream operator).length, ∃ later,
    (worker.logs operator).sent channel =
      before.flatMap (fun turn => turn.left channel) ++ .absBarrier :: later ∧
    .absBarrier ∉ before.flatMap (fun turn => turn.left channel) ∧
    .absBarrier ∉ later
  handed : (graph.kind operator).forwards = true →
    (worker.logs operator).handed.countP Message.isBarrier = 1
  written : match graph.kind operator with
    | .logic logic _ => ∃ state,
        (worker.logs operator).origin = .logic logic state ∧
        (worker.persisted.filter fun write =>
            decide (write.1 = graph.operatorId operator)).map Prod.snd =
          (logic.persist.map fun write => write (logic.onSchedule
            turn.call.external (logic.replay state before)).1).toList
    | .distribute _ => (worker.persisted.filter fun write =>
        decide (write.1 = graph.operatorId operator)) = []

theorem exists_of_countP_eq_one {α : Type} {test : α → Bool} {items : List α}
    (one : items.countP test = 1) :
    ∃ before item after, items = before ++ item :: after ∧ test item = true ∧
      ∀ other ∈ before ++ after, test other = false := by
  obtain ⟨item, member, passes⟩ : ∃ item ∈ items, test item = true :=
    List.countP_pos_iff.mp (by omega)
  obtain ⟨before, after, rfl⟩ := List.append_of_mem member
  refine ⟨before, item, after, rfl, passes, ?_⟩
  have none : (before ++ after).countP test = 0 := by
    rw [List.countP_append, List.countP_cons_of_pos passes] at one
    rw [List.countP_append]
    omega
  intro other isOther
  simpa using List.countP_eq_zero.mp none other isOther

theorem countP_isBarrier_counted (messages : List (Message K V T)) :
    (messages.filter Message.isCounted).countP Message.isBarrier =
      messages.countP Message.isBarrier := by
  rw [List.countP_filter]
  apply List.countP_congr
  intro message _
  cases message <;> simp [Message.isBarrier, Message.isCounted]

theorem not_mem_barrier {messages : List (Message K V T)}
    (none : messages.countP Message.isBarrier = 0) :
    .absBarrier ∉ messages :=
  fun member => List.countP_eq_zero.mp none _ member rfl

namespace Worker

variable {graph : Graph K V T S E} {worker : Worker K V T S E}

/-- With no barrier left in the graph every channel has got one and every
operator has taken one: by the order of the operators. -/
theorem one_barrier (sound : worker.Sound graph) (kept : worker.Kept graph)
    (isSnapshot : worker.procedure = some .snapshot)
    (quiet : ∀ operator < graph.size, Quiet (worker.operators operator))
    (operator : Nat) (inGraph : operator < graph.size) :
    (∀ channel < (graph.upstream operator).length,
      ((worker.logs operator).sent channel).countP Message.isBarrier = 1) ∧
    (worker.logs operator).turns.countP Turn.takesBarrier = 1 ∧
    ((graph.kind operator).forwards = true →
      (worker.logs operator).handed.countP Message.isBarrier = 1) := by
  induction operator using Nat.strongRecOn with
  | ind operator ih =>
      obtain ⟨channels, -, forwards, split, served⟩ :=
        sound.wired operator inGraph
      have sent : ∀ channel < (graph.upstream operator).length,
          ((worker.logs operator).sent channel).countP
            Message.isBarrier = 1 := by
        intro channel inRange
        have isSource : (graph.upstream operator)[channel]? =
            some (graph.upstream operator)[channel] := by simp [inRange]
        rw [← countP_isBarrier_counted,
          sound.linked operator inGraph channel _ isSource]
        cases source : (graph.upstream operator)[channel] with
        | none =>
            simp [issued, isSnapshot, Procedure.message, Message.isBarrier]
        | some source' =>
            have member := source ▸ List.getElem_mem inRange
            have earlier := graph.earlier operator inGraph source' member
            simp only [issued]
            rw [countP_isBarrier_counted]
            exact (ih source' earlier (by omega)).2.2
              (graph.forwards operator inGraph source' member)
      have received : ∀ channel < (graph.upstream operator).length,
          (worker.logs operator).turns.countP Turn.takesBarrier = 1 := by
        intro channel inRange
        have none : ((worker.operators operator).input.queue channel).countP
            Message.isBarrier = 0 := by
          rw [← countP_isBarrier_counted, (quiet operator inGraph).1 channel]
          rfl
        have all := sent channel inRange
        rw [split channel, List.countP_append, none,
          Log.barriers_received served inRange] at all
        exact all
      have taken := received 0
        (List.length_pos_iff.mpr (graph.linked operator inGraph))
      refine ⟨sent, taken, fun isForwarding => ?_⟩
      have free : (worker.operators operator).body.pending = false := by
        have none := (quiet operator inGraph).2
        cases body : (worker.operators operator).body with
        | logic running state => rfl
        | distributor partitioner running =>
            rw [body] at none
            cases held : running.localBarrier with
            | false => exact held
            | true => simp [Body.held, Distributor.held, held] at none
      have balance :=
        (kept operator inGraph).barriers (forwards.trans isForwarding)
      rw [taken, free] at balance
      exact balance.symm

/-- When the loop of a snapshot ends the barrier has passed every operator. -/
theorem exists_passed (sound : worker.Sound graph) (kept : worker.Kept graph)
    (isSnapshot : worker.procedure = some .snapshot)
    (exits : worker.strongCount graph ≤ 1) {operator : Nat}
    (inGraph : operator < graph.size) :
    ∃ before turn after, Passed graph worker operator before turn after := by
  have quiet := strongCount_le_one.mp exits
  obtain ⟨sent, taken, handed⟩ :=
    one_barrier sound kept isSnapshot quiet operator inGraph
  obtain ⟨channels, -, -, queues, served⟩ := sound.wired operator inGraph
  obtain ⟨before, turn, after, split, takes, alone⟩ :=
    exists_of_countP_eq_one taken
  have isTaken := Turn.takesBarrier_iff.mp takes
  have written := (kept operator inGraph).written
  have states := (kept operator inGraph).states
  refine ⟨before, turn, after, split, isTaken, ?_, served, ?_, handed, ?_⟩
  · intro other member barrier
    have none := alone other member
    rw [Turn.takesBarrier_iff.mpr barrier] at none
    cases none
  · intro channel inRange
    have left : turn.left channel = [.absBarrier] :=
      (served turn (by simp [split])).left_barrier inRange isTaken
    have cut : (worker.logs operator).sent channel =
        before.flatMap (fun turn => turn.left channel) ++ .absBarrier ::
          (after.flatMap (fun turn => turn.left channel) ++
            (worker.operators operator).input.queue channel) := by
      rw [queues channel]
      simp [Log.received, split, left]
    have one := sent channel inRange
    rw [cut, List.countP_append, List.countP_cons_of_pos rfl] at one
    exact ⟨_, cut, not_mem_barrier (by omega), not_mem_barrier (by omega)⟩
  · split at states
    next logic initial _ =>
      obtain ⟨state, origin, -, records⟩ := states
      refine ⟨state, origin, ?_⟩
      have silent : ∀ other ∈ before ++ after, other.written = none := by
        intro other member
        obtain ⟨earlier, later, around⟩ := List.append_of_mem
          (show other ∈ (worker.logs operator).turns by
            rw [split]
            simp only [List.mem_append, List.mem_cons] at member ⊢
            tauto)
        exact records.silent around (alone other member)
      have here : turn.written = logic.persist.map fun write =>
          write (logic.onSchedule turn.call.external
            (logic.replay state before)).1 := by
        rw [records before turn after split, isTaken]
        rfl
      rw [written, split, List.filterMap_append, List.filterMap_cons, here]
      have none : ∀ turns : List (Turn K V T E),
          (∀ other ∈ turns, other.written = none) →
            turns.filterMap Turn.written = [] :=
        fun turns silent => List.filterMap_eq_nil_iff.mpr silent
      rw [none before fun other member => silent other (by simp [member]),
        none after fun other member => silent other (by simp [member])]
      cases logic.persist <;> rfl
    next partitioner _ =>
      have nothing : (worker.logs operator).turns.filterMap Turn.written = [] :=
        List.filterMap_eq_nil_iff.mpr states.2
      rw [nothing] at written
      exact List.map_eq_nil_iff.mp written

end Worker

section

variable [DecidableEq K] [MaybeTime T] [LT T] [DecidableLT T]

/-- When the loop of a snapshot exits, the barrier has passed every operator
exactly once, and each operator which persists has written exactly the state it
had after the messages before the barrier, under an id of its own. -/
theorem snapshot_persists {graph : Graph K V T S E} {context : BuildContext}
    {start worker : Worker K V T S E} (built : graph.execute context = .ok start)
    (run : Reaches (Worker.act graph context.workerId)
      (Worker.allowed graph context.workerId) start worker)
    (isSnapshot : worker.procedure = some .snapshot)
    (exits : worker.strongCount graph ≤ 1) :
    (∀ one < graph.size, ∀ other < graph.size,
      graph.operatorId one = graph.operatorId other → one = other) ∧
    ∀ operator < graph.size, ∃ before turn after,
      Passed graph worker operator before turn after := by
  have distinct : ∀ one < graph.size, ∀ other < graph.size,
      graph.operatorId one = graph.operatorId other → one = other :=
    fun one oneIn other otherIn => Graph.execute_distinct built oneIn otherIn
  have both : worker.Sound graph ∧ worker.Kept graph := by
    refine run.invariant (fun worker => worker.Sound graph ∧ worker.Kept graph)
      ⟨.execute built, .execute built⟩ ?_
    intro state event next _ holds allowed stepped
    exact ⟨holds.1.step allowed stepped,
      holds.2.step holds.1 distinct allowed stepped⟩
  refine ⟨distinct, fun operator inGraph => ?_⟩
  exact Worker.exists_passed both.1 both.2 isSnapshot exits inGraph

end

/-! A source, a distributor, a split and the union of its two branches, one of
which generates epochs; the barrier of the other worker comes late. -/

def branches : Graph Nat Nat Nat (List Nat) Unit where
  size := 5
  name operator := toString operator
  operatorId operator := 10 + operator
  kind
    | 0 => .logic (Library.listParts fun part => ⟨part, part, part⟩) [7]
    | 1 => .distribute fun _ _ => 0
    | 2 => .logic Library.split []
    | 3 => .logic ((Library.generateEpochs
        (fun message _ => some message.timestamp) id id
        fun epoch => epoch.toList.map UInt8.ofNat).within List.head?
          Option.toList) []
    | _ => .logic (Library.statelessSink
        fun message values => values ++ [message.value]) []
  upstream
    | 0 => [none]
    | 1 => [some 0]
    | 2 => [some 1]
    | 3 => [some 2]
    | _ => [some 2, some 3]
  carries _ _ _ := true
  linked := by decide
  earlier := by
    intro operator inGraph source member
    match operator with
    | 0 => simp at member
    | 1 | 2 | 3 => simp at member; omega
    | more + 4 => simp at member; omega
  forwards := by
    intro operator inGraph source member
    match operator with
    | 0 => simp at member
    | 1 | 2 | 3 => simp at member; subst member; rfl
    | more + 4 =>
        simp at member
        obtain rfl | rfl := member <;> rfl

def ofTwo : BuildContext where
  workerId := 0
  workerIds := IndexSet.ofList [0, 1]
  listed := by decide

def branchesStart : Worker Nat Nat Nat (List Nat) Unit where
  operators := branches.intoRunnable ofTwo
  procedure := none
  persisted := []
  logs operator := Log.start (branches.intoRunnable ofTwo operator)

def schedule (operator : Nat) : Worker.Event Nat Nat Nat (List Nat) Unit :=
  .step operator ⟨(), 0⟩

def snapshotTrace : List (Worker.Event Nat Nat Nat (List Nat) Unit) :=
  [.command .snapshot, schedule 0, schedule 1, schedule 1,
    .deliver 1 1 .barrierMarker, schedule 1, schedule 2, schedule 2,
    schedule 3, schedule 3, schedule 4, schedule 4, schedule 4, schedule 4]

@[irreducible] def snapshotWorker : Worker Nat Nat Nat (List Nat) Unit :=
  replay (Worker.act branches 0) branchesStart snapshotTrace

theorem snapshotWorker_persists :
    snapshotWorker.persisted = [(13, [7])] ∧
    (∀ one < branches.size, ∀ other < branches.size,
      branches.operatorId one = branches.operatorId other → one = other) ∧
    ∀ operator < branches.size, ∃ before turn after,
      Passed branches snapshotWorker operator before turn after := by
  have built : branches.execute ofTwo = .ok branchesStart := rfl
  have run : Reaches (Worker.act branches ofTwo.workerId)
      (Worker.allowed branches ofTwo.workerId) branchesStart
      snapshotWorker := by
    unfold snapshotWorker
    exact Follows.reaches snapshotTrace .refl (by decide +kernel)
  have isSnapshot : snapshotWorker.procedure = some .snapshot := by
    decide +kernel
  have exits : snapshotWorker.strongCount branches ≤ 1 := by decide +kernel
  exact ⟨by decide +kernel, snapshot_persists built run isSnapshot exits⟩

end Malstrom.Stream
