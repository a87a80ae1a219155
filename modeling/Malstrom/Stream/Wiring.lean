import Malstrom.Stream.Worker

namespace Malstrom.Stream

open Data Channels Keyed Operators

variable {K V T S E : Type}

/-! What holds of the channels of a worker in every state it reaches. -/

@[simp] theorem length_sendAll (input : Input K V T)
    (messages : Nat → List (Message K V T)) :
    (sendAll input messages).receivers.length = input.receivers.length := by
  simp [sendAll]

theorem queue_sendAll (input : Input K V T)
    (messages : Nat → List (Message K V T)) {channel : Nat}
    (unlinked : input.receivers.length ≤ channel → messages channel = []) :
    (sendAll input messages).queue channel =
      input.queue channel ++ messages channel := by
  by_cases linked : channel < input.receivers.length
  · simp [Input.queue, sendAll, linked]
  · have outside : input.receivers.length ≤ channel := by omega
    rw [Input.queue_unlinked _ outside, unlinked outside]
    exact Input.queue_unlinked _ (by simpa using outside)

namespace Graph

variable {graph : Graph K V T S E} {source : Option Nat}
  {messages : List (Message K V T)} {target channel : Nat}

theorem routed_unlinked (unlinked : (graph.upstream target).length ≤ channel) :
    graph.routed source messages target channel = [] := by
  simp [routed, unlinked]

theorem filter_routed {test : Message K V T → Bool}
    (system : ∀ message, test message = true → message.data? = none) :
    (graph.routed source messages target channel).filter test =
      if (graph.upstream target)[channel]? = some source then
        messages.filter test else [] := by
  unfold routed
  split
  next =>
    rw [List.filter_filter]
    apply List.filter_congr
    intro message _
    cases passes : test message with
    | false => rfl
    | true =>
        have := system message passes
        cases message <;> simp_all [carried, Message.data?]
  next => rfl

end Graph

theorem Message.data?_counted {message : Message K V T}
    (counted : message.isCounted = true) : message.data? = none := by
  cases message <;> simp_all [Message.isCounted, Message.data?]

def Worker.issued (worker : Worker K V T S E) :
    Option Nat → List (Message K V T)
  | none => worker.procedure.toList.map Procedure.message
  | some source => (worker.logs source).handed.filter Message.isCounted

structure Wired (graph : Graph K V T S E) (position : Nat)
    (operator : StandardOperator K V T S E) (log : Log K V T S E) : Prop where
  channels : operator.input.receivers.length =
    (graph.upstream position).length
  consistent : operator.body.Consistent
  forwards : operator.body.forwards = (graph.kind position).forwards
  split : ∀ channel, log.sent channel =
    log.received channel ++ operator.input.queue channel
  served : ∀ turn ∈ log.turns, turn.Served (graph.upstream position).length

def Worker.Wired (graph : Graph K V T S E) (worker : Worker K V T S E) :
    Prop :=
  ∀ operator < graph.size, Stream.Wired graph operator
    (worker.operators operator) (worker.logs operator)

def Worker.Linked (graph : Graph K V T S E) (worker : Worker K V T S E) :
    Prop :=
  ∀ operator < graph.size, ∀ channel source,
    (graph.upstream operator)[channel]? = some source →
      ((worker.logs operator).sent channel).filter Message.isCounted =
        worker.issued source

def Worker.Exclusive (graph : Graph K V T S E) (worker : Worker K V T S E) :
    Prop :=
  ∀ operator < graph.size, ∀ message : Message K V T,
    message.isCounted = true →
    message ∈ (worker.logs operator).handed ∨
      message ∈ (worker.operators operator).body.held →
    ∃ procedure, worker.procedure = some procedure ∧
      message = procedure.message

namespace Worker

variable {graph : Graph K V T S E} {worker next : Worker K V T S E}

theorem Wired.hand (wired : worker.Wired graph) (source : Option Nat)
    (messages : List (Message K V T)) :
    (worker.hand graph source messages).Wired graph := by
  intro operator inGraph
  obtain ⟨channels, consistent, forwards, split, served⟩ :=
    wired operator inGraph
  refine ⟨?_, consistent, forwards, fun channel => ?_, served⟩
  · simpa [Worker.hand] using channels
  · have queue : (sendAll (worker.operators operator).input
        (graph.routed source messages operator)).queue channel =
        (worker.operators operator).input.queue channel ++
          graph.routed source messages operator channel := by
      apply queue_sendAll
      rw [channels]
      exact Graph.routed_unlinked
    simp only [Worker.hand]
    rw [queue, split, List.append_assoc]
    rfl

variable [DecidableEq K] [MaybeTime T] [LT T] [DecidableLT T]

theorem Wired.install (wired : worker.Wired graph) {workerId : WorkerId}
    {operator : Nat} {call : Call E} {stepped : Stepped K V T S E}
    (inGraph : operator < graph.size)
    (ran : (worker.operators operator).step workerId call = .ok stepped) :
    (worker.install graph operator call stepped).Wired graph := by
  intro other otherIn
  by_cases same : other = operator
  · subst same
    obtain ⟨channels, consistent, forwards, split, served⟩ :=
      wired other inGraph
    obtain ⟨turn, length, queues⟩ :=
      StandardOperator.step_served consistent ran
    have body := (StandardOperator.step_ran consistent ran).1
    simp only [Worker.install, Function.update_self]
    refine ⟨length.trans channels, body.consistent consistent,
      body.forwards.trans forwards, fun channel => ?_, ?_⟩
    · rw [split channel, queues channel]
      simp [Log.received]
    · rw [channels] at turn
      intro later member
      cases List.mem_append.mp member with
      | inl earlier => exact served later earlier
      | inr last =>
          obtain rfl := List.mem_singleton.mp last
          exact turn
  · simpa only [Worker.install, Function.update_of_ne same]
      using wired other otherIn

omit [MaybeTime T] [LT T] [DecidableLT T] in
theorem Wired.report (wired : worker.Wired graph) (operator : Nat)
    (report : Report K S) :
    { worker with
      operators := Function.update worker.operators operator
        { worker.operators operator with
          body := (worker.operators operator).body.takeReport report } }.Wired
      graph := by
  intro other otherIn
  by_cases same : other = operator
  · subst same
    obtain ⟨channels, consistent, forwards, split, served⟩ :=
      wired other otherIn
    simp only [Function.update_self]
    exact ⟨channels, Body.consistent_takeReport consistent,
      Body.forwards_takeReport.trans forwards, split, served⟩
  · simpa only [Function.update_of_ne same] using wired other otherIn

omit [DecidableEq K] [MaybeTime T] [LT T] [DecidableLT T]

theorem Wired.deliver (wired : worker.Wired graph) (operator : Nat)
    (mail : Mailbox K V T) :
    { worker with
      operators := Function.update worker.operators operator
        { worker.operators operator with mail := mail } }.Wired graph := by
  intro other otherIn
  by_cases same : other = operator
  · subst same
    obtain ⟨channels, consistent, forwards, split, served⟩ :=
      wired other otherIn
    simp only [Function.update_self]
    exact ⟨channels, consistent, forwards, split, served⟩
  · simpa only [Function.update_of_ne same] using wired other otherIn

theorem Wired.begin (wired : worker.Wired graph) (procedure : Procedure) :
    (worker.begin graph procedure).Wired graph := by
  apply Wired.hand
  intro operator inGraph
  obtain ⟨channels, consistent, forwards, split, served⟩ :=
    wired operator inGraph
  refine ⟨channels, consistent, forwards, fun channel => ?_, ?_⟩
  · simp [Log.start, Log.received]
  · simp [Log.start]

/-! ### Clones -/

/-- No counted message is on its way to an operator or held by it. -/
def Quiet (operator : StandardOperator K V T S E) : Prop :=
  (∀ channel, (operator.input.queue channel).filter Message.isCounted = []) ∧
    operator.body.held = []

theorem clones_eq_zero (operator : StandardOperator K V T S E) :
    operator.clones = 0 ↔ Quiet operator := by
  have queues : (∀ upstream ∈ operator.input.receivers,
      upstream.receiver.countP Message.isCounted = 0) ↔
      ∀ channel,
        (operator.input.queue channel).filter Message.isCounted = [] := by
    constructor
    · intro none channel
      by_cases linked : channel < operator.input.receivers.length
      · have counted := none _ (List.getElem_mem linked)
        rw [List.countP_eq_length_filter] at counted
        simpa [Input.queue, linked] using counted
      · rw [Input.queue_unlinked _ (by omega)]
        rfl
    · intro none upstream member
      obtain ⟨channel, linked, rfl⟩ := List.mem_iff_getElem.mp member
      rw [List.countP_eq_length_filter]
      simpa [Input.queue, linked] using none channel
  unfold StandardOperator.clones Quiet
  rw [← queues, Nat.add_eq_zero_iff, List.sum_eq_zero_iff_forall_eq_nat]
  simp

/-- The loop of a procedure ends when no clone is left in the graph. -/
theorem strongCount_le_one :
    worker.strongCount graph ≤ 1 ↔
      ∀ operator < graph.size, Quiet (worker.operators operator) := by
  have sums : worker.strongCount graph ≤ 1 ↔
      ((List.range graph.size).map fun operator =>
        (worker.operators operator).clones).sum = 0 := by
    unfold strongCount
    omega
  rw [sums, List.sum_eq_zero_iff_forall_eq_nat]
  simp [clones_eq_zero]

/-! ### Counted messages -/

theorem counted_hand (source : Option Nat) (messages : List (Message K V T))
    (target channel : Nat) :
    (((worker.hand graph source messages).logs target).sent channel).filter
        Message.isCounted =
      ((worker.logs target).sent channel).filter Message.isCounted ++
        if (graph.upstream target)[channel]? = some source then
          messages.filter Message.isCounted else [] := by
  rw [← Graph.filter_routed fun _ => Message.data?_counted]
  exact List.filter_append ..

theorem Linked.begin (quiet : worker.strongCount graph ≤ 1)
    (procedure : Procedure) : (worker.begin graph procedure).Linked graph := by
  intro operator inGraph channel source isSource
  have empty := (strongCount_le_one.mp quiet operator inGraph).1 channel
  unfold Worker.begin
  rw [counted_hand]
  simp only [Log.start, empty, List.nil_append, isSource, Option.some.injEq]
  cases source with
  | none => cases procedure <;> rfl
  | some source => rfl

theorem Linked.install (linked : worker.Linked graph) (operator : Nat)
    (call : Call E) (stepped : Stepped K V T S E) :
    ((worker.install graph operator call stepped).hand graph (some operator)
      stepped.output).Linked graph := by
  intro target inGraph channel source isSource
  have sent : ((worker.install graph operator call stepped).logs target).sent =
      (worker.logs target).sent := by
    simp only [Worker.install, Function.update_apply]
    split
    next same => rw [same]
    next => rfl
  rw [counted_hand, sent, linked target inGraph channel source isSource,
    isSource]
  cases source with
  | none => simp [issued, Worker.hand, Worker.install]
  | some source =>
      simp only [Option.some.injEq, issued, Worker.hand, Worker.install,
        Function.update_apply]
      split
      next same => simp [same]
      next other => simp

theorem Exclusive.sent (exclusive : worker.Exclusive graph)
    (linked : worker.Linked graph) {operator channel : Nat}
    (inGraph : operator < graph.size)
    (inRange : channel < (graph.upstream operator).length)
    {message : Message K V T} (counted : message.isCounted = true)
    (member : message ∈ (worker.logs operator).sent channel) :
    ∃ procedure, worker.procedure = some procedure ∧
      message = procedure.message := by
  have issued : message ∈
      ((worker.logs operator).sent channel).filter Message.isCounted :=
    List.mem_filter.mpr ⟨member, counted⟩
  have isSource : (graph.upstream operator)[channel]? =
      some (graph.upstream operator)[channel] := by simp [inRange]
  rw [linked operator inGraph channel _ isSource] at issued
  cases source : (graph.upstream operator)[channel] with
  | none =>
      rw [source] at issued
      obtain ⟨procedure, isCurrent, rfl⟩ := List.mem_map.mp issued
      exact ⟨procedure, by simpa using isCurrent, rfl⟩
  | some source' =>
      rw [source] at issued
      have earlier := graph.earlier operator inGraph source'
        (source ▸ List.getElem_mem inRange)
      exact exclusive source' (by omega) message counted
        (.inl (List.mem_of_mem_filter issued))

theorem Exclusive.begin (quiet : worker.strongCount graph ≤ 1)
    (procedure : Procedure) :
    (worker.begin graph procedure).Exclusive graph := by
  intro operator inGraph message counted member
  have empty := (strongCount_le_one.mp quiet operator inGraph).2
  simp [Worker.begin, Worker.hand, Log.start, empty] at member

variable [DecidableEq K] [MaybeTime T] [LT T] [DecidableLT T]

theorem Wired.taken_sent (wired : worker.Wired graph) {workerId : WorkerId}
    {operator : Nat} {call : Call E} {stepped : Stepped K V T S E}
    (inGraph : operator < graph.size)
    (ran : (worker.operators operator).step workerId call = .ok stepped)
    {message : Message K V T} (taken : stepped.taken = some message)
    (noEpoch : message.epoch? = none) :
    ∃ channel < (graph.upstream operator).length,
      message ∈ (worker.logs operator).sent channel := by
  obtain ⟨channels, consistent, forwards, split, -⟩ := wired operator inGraph
  obtain ⟨served, -, queues⟩ := StandardOperator.step_served consistent ran
  rw [channels] at served
  obtain ⟨channel, inRange, left⟩ := served.mem_left
    (List.length_pos_iff.mpr (graph.linked operator inGraph)) taken noEpoch
  refine ⟨channel, inRange, ?_⟩
  rw [split channel, queues channel]
  simp [left]

theorem Exclusive.install (exclusive : worker.Exclusive graph)
    (linked : worker.Linked graph) (wired : worker.Wired graph)
    {workerId : WorkerId} {operator : Nat} {call : Call E}
    {stepped : Stepped K V T S E} (inGraph : operator < graph.size)
    (ran : (worker.operators operator).step workerId call = .ok stepped) :
    ((worker.install graph operator call stepped).hand graph (some operator)
      stepped.output).Exclusive graph := by
  intro other otherIn message counted member
  simp only [Worker.hand, Worker.install] at member ⊢
  by_cases same : other = operator
  · subst same
    simp only [Function.update_self] at member
    have consistent := (wired other inGraph).consistent
    have body := (StandardOperator.step_ran consistent ran).1
    have before : message ∈ (worker.logs other).handed ∨
        message ∈ stepped.taken ∨
          message ∈ (worker.operators other).body.held := by
      have kept := body.counted consistent counted
      rw [List.mem_append] at member
      tauto
    have noEpoch : message.epoch? = none := by
      cases message <;> simp_all [Message.isCounted, Message.epoch?]
    rcases before with handed | taken | held
    · exact exclusive other inGraph message counted (.inl handed)
    · obtain ⟨channel, inRange, sent⟩ :=
        wired.taken_sent inGraph ran taken noEpoch
      exact exclusive.sent linked inGraph inRange counted sent
    · exact exclusive other inGraph message counted (.inr held)
  · simp only [Function.update_of_ne same] at member
    exact exclusive other otherIn message counted member

/-! ### Every reachable state -/

/-- The channels of a worker and the counted messages in them. -/
structure Sound (graph : Graph K V T S E) (worker : Worker K V T S E) :
    Prop where
  wired : worker.Wired graph
  linked : worker.Linked graph
  exclusive : worker.Exclusive graph

theorem Sound.step (sound : worker.Sound graph) {workerId : WorkerId}
    {event : Event K V T S E} (allowed : worker.allowed graph workerId event)
    (stepped : worker.act graph workerId event = .ok next) :
    next.Sound graph := by
  obtain ⟨wired, linked, exclusive⟩ := sound
  cases event with
  | command procedure =>
      obtain rfl := Except.ok.inj stepped
      exact ⟨wired.begin procedure, .begin allowed.1 procedure,
        .begin allowed.1 procedure⟩
  | step operator call =>
      simp only [Worker.act] at stepped
      split at stepped
      next => simp at stepped
      next result ran =>
        obtain rfl := Except.ok.inj stepped
        exact ⟨(wired.install allowed ran).hand _ _,
          linked.install operator call result,
          exclusive.install linked wired allowed ran⟩
  | deliver operator remote message =>
      obtain rfl := Except.ok.inj stepped
      refine ⟨wired.deliver operator _, linked, ?_⟩
      intro other otherIn counted isCounted member
      apply exclusive other otherIn counted isCounted
      simp only [Function.update_apply] at member
      split at member
      next same => simpa [same] using member
      next => exact member
  | report operator report =>
      obtain rfl := Except.ok.inj stepped
      refine ⟨wired.report operator report, linked, ?_⟩
      intro other otherIn counted isCounted member
      apply exclusive other otherIn counted isCounted
      simp only [Function.update_apply] at member
      split at member
      next same => simpa [same] using member
      next => exact member

omit [DecidableEq K] [MaybeTime T] [LT T] [DecidableLT T]

theorem execute_eq_ok {context : BuildContext}
    (built : graph.execute context = .ok worker) :
    worker.operators = graph.intoRunnable context ∧ worker.procedure = none ∧
      worker.persisted = [] ∧
      worker.logs = fun operator => Log.start (worker.operators operator) := by
  simp only [Graph.execute] at built
  split at built
  next => simp at built
  next =>
    obtain rfl := Except.ok.inj built
    exact ⟨rfl, rfl, rfl, rfl⟩

theorem queue_intoRunnable (context : BuildContext) (operator channel : Nat) :
    (graph.intoRunnable context operator).input.queue channel = [] := by
  simp only [Graph.intoRunnable, Input.queue, List.getElem?_map]
  cases (graph.upstream operator)[channel]? <;> rfl

theorem Sound.execute {context : BuildContext}
    (built : graph.execute context = .ok worker) : worker.Sound graph := by
  obtain ⟨operators, procedure, -, logs⟩ := execute_eq_ok built
  constructor
  · intro operator inGraph
    rw [logs, operators]
    refine ⟨by simp [Graph.intoRunnable], ?_, ?_, ?_, by simp [Log.start]⟩
    · simp only [Graph.intoRunnable]
      cases graph.kind operator <;> trivial
    · simp only [Graph.intoRunnable]
      cases graph.kind operator <;> rfl
    · simp [Log.start, Log.received]
  · intro operator inGraph channel source isSource
    rw [logs, operators]
    simp only [Log.start, queue_intoRunnable, List.filter_nil]
    cases source <;> simp [issued, procedure, logs, Log.start]
  · intro operator inGraph message counted member
    rw [logs, operators] at member
    simp only [Log.start, List.not_mem_nil, false_or, Graph.intoRunnable]
      at member
    cases kind : graph.kind operator <;>
      simp [kind, Body.held, Distributor.fresh, Distributor.held,
        MessageRouter.new, MessageRouter.routerPhase, RouterPhase.held]
        at member

end Worker

/-! ### Operator ids -/

theorem Graph.checkNames_ok {graph : Graph K V T S E}
    {seenIds : List OperatorId} {operators : List Nat}
    (checked : graph.checkNames seenIds operators = .ok ()) :
    (operators.map graph.operatorId).Nodup ∧
      ∀ operator ∈ operators, graph.operatorId operator ∉ seenIds := by
  induction operators generalizing seenIds with
  | nil => exact ⟨List.nodup_nil, by simp⟩
  | cons operator rest ih =>
      simp only [checkNames] at checked
      split at checked
      next => simp at checked
      next unseen =>
        obtain ⟨distinct, fresh⟩ := ih checked
        refine ⟨List.nodup_cons.mpr ⟨?_, distinct⟩, ?_⟩
        · intro member
          obtain ⟨other, isLater, same⟩ := List.mem_map.mp member
          exact fresh other isLater (same ▸ List.mem_cons_self)
        · intro other member
          cases List.mem_cons.mp member with
          | inl same => exact same ▸ unseen
          | inr later =>
              exact fun seen => fresh other later (List.mem_cons_of_mem _ seen)

theorem Graph.execute_distinct {graph : Graph K V T S E}
    {context : BuildContext} {worker : Worker K V T S E}
    (built : graph.execute context = .ok worker) {one other : Nat}
    (oneIn : one < graph.size) (otherIn : other < graph.size)
    (same : graph.operatorId one = graph.operatorId other) : one = other := by
  simp only [execute] at built
  split at built
  next => simp at built
  next checked =>
    have distinct := (checkNames_ok checked).1
    exact List.inj_on_of_nodup_map distinct (List.mem_range.mpr oneIn)
      (List.mem_range.mpr otherIn) same

end Malstrom.Stream
