import Malstrom.Data.Transducer
import Malstrom.Stream.Library
import Malstrom.Stream.Wiring

namespace Malstrom.Stream

open Data Channels Keyed Operators

variable {K V T S E : Type}

/-! What a graph computes: each operator which only reacts to its messages is a
function of the history of its source, whatever the schedule. -/

/-- With one channel everything is taken in the order in which it came. -/
theorem recv_single [MaybeTime T] [LT T] [DecidableLT T]
    {input next : Input K V T} {taken : Option (Message K V T)}
    (single : input.receivers.length = 1)
    (received : input.recv = .ok (taken, next)) :
    taken.toList ++ next.queue 0 = input.queue 0 := by
  obtain ⟨upstream, only⟩ := List.length_eq_one_iff.mp single
  cases Input.recv_received received with
  | @passed channel message rest isNext linked queue unmarked noEpoch =>
      obtain rfl : channel = 0 := by omega
      rw [queue]
      simp only [Input.queue, only, List.getElem?_cons_zero] at queue
      simp [Input.queue, only, UpstreamState.pop, queue]
  | @epoch channel epoch rest isNext linked queue =>
      obtain rfl : channel = 0 := by omega
      rw [queue]
      simp only [Input.queue, only, List.getElem?_cons_zero] at queue
      have merged : MaybeTime.mergeTimestamps [some epoch] = some epoch := rfl
      simp [Input.recvEpoch, Input.queue, only, UpstreamState.pop, queue, merged]
  | idle stalled waiting => rfl
  | @aligned marker stalled linked isMarker heads =>
      obtain ⟨rest, queue⟩ := heads upstream (by simp [only])
      simp [Input.takeMarkers, Input.queue, only, UpstreamState.pop, queue]

theorem StandardOperator.step_single [DecidableEq K] [MaybeTime T] [LT T]
    [DecidableLT T] {operator : StandardOperator K V T S E}
    {workerId : WorkerId} {call : Call E} {stepped : Stepped K V T S E}
    (consistent : operator.body.Consistent)
    (single : operator.input.receivers.length = 1)
    (ran : operator.step workerId call = .ok stepped) :
    stepped.taken.toList ++ stepped.operator.input.queue 0 =
      operator.input.queue 0 := by
  have received := (step_ran consistent ran).2
  split at received
  next =>
    obtain ⟨nothing, same⟩ := received
    rw [nothing, same]
    rfl
  next => exact recv_single single received

namespace Logic

def Inert (logic : Logic K V T S E) : Prop :=
  ∀ external state, logic.onSchedule external state = (state, [])

def transducer (logic : Logic K V T S E) :
    Transducer S (Message K V T) (Message K V T) where
  step state message :=
    let handled := logic.onMessage message state
    (handled.1, handled.2 ++ logic.forwarded message)

variable {logic : Logic K V T S E}

theorem Inert.advance (inert : logic.Inert) (external : E) (state : S)
    (taken : Option (Message K V T)) :
    logic.advance external state taken =
      logic.transducer.after state taken.toList := by
  cases taken with
  | none => simp [Logic.advance, inert external state]
  | some message =>
      simp [Logic.advance, inert external state, transducer]

theorem Inert.output (inert : logic.Inert) (external : E) (state : S)
    (taken : Option (Message K V T)) :
    logic.output external state taken =
      logic.transducer.outputs state taken.toList := by
  cases taken with
  | none => simp [Logic.output, inert external state]
  | some message =>
      simp [Logic.output, inert external state, transducer]

end Logic

/-! ### The meaning of a graph -/

namespace Graph

/-- These operators react to the messages of one source only. -/
def Reacts (graph : Graph K V T S E) (reacts : Nat → Bool) : Prop :=
  ∀ operator < graph.size, reacts operator = true →
    ∃ logic initial source, graph.kind operator = .logic logic initial ∧
      logic.Inert ∧ graph.upstream operator = [source]

/-- The history of an operator, computed from that of its source. -/
def response (graph : Graph K V T S E) (operator : Nat)
    (history : Option Nat → List (Message K V T)) : List (Message K V T) :=
  match graph.kind operator, graph.upstream operator with
  | .logic logic initial, [source] => logic.transducer.outputs initial
      ((history source).filter (graph.carried operator 0))
  | _, _ => history (some operator)

/-- The histories of the first operators, where those of the root and of the
operators which do not react are given. -/
def meaning (graph : Graph K V T S E) (reacts : Nat → Bool)
    (given : Option Nat → List (Message K V T)) :
    Nat → Option Nat → List (Message K V T)
  | 0 => given
  | operator + 1 =>
      let history := graph.meaning reacts given operator
      if reacts operator then
        Function.update history (some operator) (graph.response operator history)
      else history

variable {graph : Graph K V T S E} {reacts : Nat → Bool}
  {given : Option Nat → List (Message K V T)}

theorem meaning_later {count : Nat} {source : Option Nat}
    (done : ∀ operator, source = some operator → operator < count)
    (more : Nat) :
    graph.meaning reacts given (count + more) source =
      graph.meaning reacts given count source := by
  induction more with
  | zero => rfl
  | succ more ih =>
      rw [← Nat.add_assoc, meaning, ← ih]
      split
      next =>
        apply Function.update_of_ne
        intro same
        have := done _ same
        omega
      next => rfl

theorem meaning_given {source : Option Nat}
    (other : ∀ operator, source = some operator → reacts operator = false)
    (count : Nat) :
    graph.meaning reacts given count source = given source := by
  induction count with
  | zero => rfl
  | succ count ih =>
      rw [meaning, ← ih]
      split
      next reacting =>
        apply Function.update_of_ne
        intro same
        simp [other _ same] at reacting
      next => rfl

/-- The history of an operator which reacts is what its logic makes of that of
its source. -/
theorem meaning_reacts {operator : Nat} (inGraph : operator < graph.size)
    (reacting : reacts operator = true) {logic : Logic K V T S E}
    {initial : S} {source : Option Nat}
    (kind : graph.kind operator = .logic logic initial)
    (upstream : graph.upstream operator = [source]) :
    graph.meaning reacts given graph.size (some operator) =
      logic.transducer.outputs initial
        ((graph.meaning reacts given graph.size source).filter
          (graph.carried operator 0)) := by
  have isLater (count : Nat) (later : operator < count)
      (within : count ≤ graph.size) :
      graph.meaning reacts given graph.size (some operator) =
        graph.meaning reacts given count (some operator) := by
    obtain ⟨more, isSize⟩ := Nat.exists_eq_add_of_le within
    rw [isSize]
    exact meaning_later (fun other same => Option.some.inj same ▸ later) more
  have sourceDone : graph.meaning reacts given graph.size source =
      graph.meaning reacts given operator source := by
    obtain ⟨more, isSize⟩ := Nat.exists_eq_add_of_le inGraph.le
    rw [isSize]
    refine meaning_later (fun other same => ?_) more
    exact graph.earlier operator inGraph other (by simp [upstream, same])
  rw [isLater (operator + 1) (Nat.lt_succ_self _) inGraph, sourceDone, meaning]
  simp only [reacting, if_true, response, kind, upstream,
    Function.update_self]

/-- From the root and the operators which do not react to all others. -/
theorem Reacts.induction (reacting : graph.Reacts reacts)
    {motive : Option Nat → Prop} (root : motive none)
    (other : ∀ operator < graph.size, reacts operator = false →
      motive (some operator))
    (answers : ∀ operator < graph.size, reacts operator = true →
      ∀ logic initial source, graph.kind operator = .logic logic initial →
        logic.Inert → graph.upstream operator = [source] → motive source →
          motive (some operator))
    {operator : Nat} (inGraph : operator < graph.size) :
    motive (some operator) := by
  induction operator using Nat.strong_induction_on with
  | _ operator ih =>
      cases isReacting : reacts operator with
      | false => exact other operator inGraph isReacting
      | true =>
          obtain ⟨logic, initial, source, kind, inert, upstream⟩ :=
            reacting operator inGraph isReacting
          refine answers operator inGraph isReacting logic initial source kind
            inert upstream ?_
          cases source with
          | none => exact root
          | some earlier =>
              have before := graph.earlier operator inGraph earlier
                (by simp [upstream])
              exact ih earlier before (before.trans inGraph)

theorem meaning_unreacting {operator : Nat}
    (silent : reacts operator = false) (count : Nat) :
    graph.meaning reacts given count (some operator) =
      given (some operator) := by
  apply meaning_given
  rintro other same
  rw [← Option.some.inj same, silent]

theorem meaning_congr (reacting : graph.Reacts reacts)
    {others : Option Nat → List (Message K V T)}
    (root : given none = others none)
    (same : ∀ operator < graph.size, reacts operator = false →
      given (some operator) = others (some operator))
    {operator : Nat} (inGraph : operator < graph.size) :
    graph.meaning reacts given graph.size (some operator) =
      graph.meaning reacts others graph.size (some operator) := by
  refine reacting.induction (motive := fun source =>
    graph.meaning reacts given graph.size source =
      graph.meaning reacts others graph.size source) ?_ ?_ ?_ inGraph
  · rw [meaning_given (by simp), meaning_given (by simp), root]
  · intro operator inGraph silent
    rw [meaning_unreacting silent, meaning_unreacting silent,
      same operator inGraph silent]
  · intro operator inGraph answers logic initial source kind inert upstream ih
    rw [meaning_reacts inGraph answers kind upstream,
      meaning_reacts inGraph answers kind upstream, ih]

end Graph

/-! ### A worker with its whole history -/

/-- A worker with what every source has sent and every operator has taken since
the worker was built. -/
structure Account (K V T S E : Type) extends Worker K V T S E where
  sent : Option Nat → List (Message K V T) := fun _ => []
  taken : Nat → List (Message K V T) := fun _ => []

namespace Account

variable {graph : Graph K V T S E}

def begin (account : Account K V T S E) (graph : Graph K V T S E)
    (procedure : Procedure) : Account K V T S E where
  toWorker := account.toWorker.begin graph procedure
  sent := Function.update account.sent none
    (account.sent none ++ [procedure.message])
  taken := account.taken

def called (account : Account K V T S E) (graph : Graph K V T S E)
    (operator : Nat) (call : Call E) (stepped : Stepped K V T S E) :
    Account K V T S E where
  toWorker := (account.toWorker.install graph operator call stepped).hand graph
    (some operator) stepped.output
  sent := Function.update account.sent (some operator)
    (account.sent (some operator) ++ stepped.output)
  taken := Function.update account.taken operator
    (account.taken operator ++ stepped.taken.toList)

variable [DecidableEq K] [MaybeTime T] [LT T] [DecidableLT T]

def act (graph : Graph K V T S E) (workerId : WorkerId)
    (account : Account K V T S E) (event : Worker.Event K V T S E) :
    Except RunPanic (Account K V T S E) :=
  match event with
  | .command procedure => .ok (account.begin graph procedure)
  | .step operator call =>
      match (account.operators operator).step workerId call with
      | .error panic => .error panic
      | .ok stepped => .ok (account.called graph operator call stepped)
  | .deliver _ _ _ | .report _ _ =>
      match account.toWorker.act graph workerId event with
      | .error panic => .error panic
      | .ok next => .ok { account with toWorker := next }

theorem act_worker (workerId : WorkerId) (account : Account K V T S E)
    (event : Worker.Event K V T S E) :
    account.toWorker.act graph workerId event =
      (account.act graph workerId event).map Account.toWorker := by
  cases event with
  | command procedure => rfl
  | step operator call =>
      simp only [Worker.act, act]
      cases (account.operators operator).step workerId call with
      | error panic => rfl
      | ok stepped => rfl
  | deliver operator remote message => rfl
  | report operator report => rfl

omit [DecidableEq K] [MaybeTime T] [LT T] [DecidableLT T]

/-- Every operator with one channel has taken the messages of its source in
their order, and those which only react have answered just these. -/
structure Played (graph : Graph K V T S E) (account : Account K V T S E) :
    Prop where
  wired : account.toWorker.Wired graph
  fed : ∀ operator < graph.size, ∀ source,
    graph.upstream operator = [source] →
      account.taken operator ++ (account.operators operator).input.queue 0 =
        (account.sent source).filter (graph.carried operator 0)
  replays : ∀ operator < graph.size, ∀ logic initial,
    graph.kind operator = .logic logic initial → logic.Inert →
      (account.operators operator).body = .logic logic
          (logic.transducer.after initial (account.taken operator)) ∧
        account.sent (some operator) =
          logic.transducer.outputs initial (account.taken operator)

variable {account next : Account K V T S E}

theorem Played.start {context : BuildContext} {worker : Worker K V T S E}
    (built : graph.execute context = .ok worker) :
    ({ toWorker := worker } : Account K V T S E).Played graph := by
  obtain ⟨operators, -⟩ := Worker.execute_eq_ok built
  refine ⟨(Worker.Sound.execute built).wired, ?_, ?_⟩
  · intro operator inGraph source upstream
    simp only [operators, Worker.queue_intoRunnable]
    rfl
  · intro operator inGraph logic initial kind inert
    simp only [operators, Graph.intoRunnable, kind]
    exact ⟨rfl, rfl⟩

theorem queue_hand (worker : Worker K V T S E) (source : Option Nat)
    (messages : List (Message K V T)) {operator : Nat} {from' : Option Nat}
    (upstream : graph.upstream operator = [from'])
    (channels : (worker.operators operator).input.receivers.length =
      (graph.upstream operator).length) :
    ((worker.hand graph source messages).operators operator).input.queue 0 =
      (worker.operators operator).input.queue 0 ++
        if from' = source then messages.filter (graph.carried operator 0)
        else [] := by
  have queue : ((worker.hand graph source messages).operators
        operator).input.queue 0 =
      (worker.operators operator).input.queue 0 ++
        graph.routed source messages operator 0 := by
    apply queue_sendAll
    rw [channels]
    exact Graph.routed_unlinked
  rw [queue]
  simp only [Graph.routed, upstream, List.getElem?_cons_zero, Option.some.injEq]

theorem Played.begin (played : account.Played graph) (procedure : Procedure) :
    (account.begin graph procedure).Played graph where
  wired := played.wired.begin procedure
  fed operator inGraph source upstream := by
    have before := played.fed operator inGraph source upstream
    have queue := queue_hand { account.toWorker with
        procedure := some procedure
        persisted := []
        logs := fun operator => Log.start (account.operators operator) }
      none [procedure.message] upstream (played.wired operator inGraph).channels
    change account.taken operator ++ ((account.toWorker.begin graph
      procedure).operators operator).input.queue 0 = _
    rw [Worker.begin, queue, ← List.append_assoc, before]
    simp only [Account.begin, Function.update_apply]
    split
    next same => simp [same, List.filter_append]
    next => simp
  replays operator inGraph logic initial kind inert := by
    have before := played.replays operator inGraph logic initial kind inert
    simpa [Account.begin, Worker.begin, Worker.hand] using before

section

variable [DecidableEq K] [MaybeTime T] [LT T] [DecidableLT T]
  {workerId : WorkerId} {operator : Nat} {call : Call E}
  {stepped : Stepped K V T S E}

theorem Played.called (played : account.Played graph)
    (inGraph : operator < graph.size)
    (ran : (account.operators operator).step workerId call = .ok stepped) :
    (account.called graph operator call stepped).Played graph where
  wired := (played.wired.install inGraph ran).hand _ _
  fed other otherIn source upstream := by
    have before := played.fed other otherIn source upstream
    have queue := queue_hand
      (account.toWorker.install graph operator call stepped) (some operator)
      stepped.output upstream
      ((played.wired.install inGraph ran) other otherIn).channels
    have taken : (account.called graph operator call stepped).taken other ++
          ((account.toWorker.install graph operator call stepped).operators
            other).input.queue 0 =
        account.taken other ++ (account.operators other).input.queue 0 := by
      rcases eq_or_ne other operator with rfl | different
      · obtain ⟨channels, consistent, -⟩ := played.wired other inGraph
        rw [upstream] at channels
        simp only [Account.called, Worker.install, Function.update_self,
          List.append_assoc]
        rw [StandardOperator.step_single consistent channels ran]
      · simp [Account.called, Worker.install, different]
    have sent : (account.called graph operator call stepped).sent source =
        account.sent source ++
          if source = some operator then stepped.output else [] := by
      simp only [Account.called, Function.update_apply]
      split
      next same => rw [same]
      next => simp
    change (account.called graph operator call stepped).taken other ++
      (((account.toWorker.install graph operator call stepped).hand graph
        (some operator) stepped.output).operators other).input.queue 0 = _
    rw [queue, ← List.append_assoc, taken, before, sent, List.filter_append]
    split <;> rfl
  replays other otherIn logic initial kind inert := by
    have before := played.replays other otherIn logic initial kind inert
    rcases eq_or_ne other operator with rfl | different
    · obtain ⟨-, consistent, -⟩ := played.wired other inGraph
      have isRan := (StandardOperator.step_ran consistent ran).1
      rw [before.1] at isRan
      obtain ⟨after, output, -⟩ := isRan.of_logic
      rw [inert.advance, ← Transducer.after_append] at after
      rw [inert.output] at output
      simp only [Account.called, Worker.hand, Worker.install,
        Function.update_self, before.2, after, output,
        Transducer.outputs_append]
      trivial
    · simpa [Account.called, Worker.hand, Worker.install, different] using before

theorem Played.step (played : account.Played graph)
    {event : Worker.Event K V T S E}
    (allowed : account.allowed graph workerId event)
    (stepped : account.act graph workerId event = .ok next) :
    next.Played graph := by
  cases event with
  | command procedure =>
      obtain rfl := Except.ok.inj stepped
      exact played.begin procedure
  | step operator call =>
      simp only [act] at stepped
      split at stepped
      next => cases stepped
      next ran =>
        obtain rfl := Except.ok.inj stepped
        exact played.called allowed ran
  | deliver operator remote message =>
      obtain rfl := Except.ok.inj stepped
      refine ⟨played.wired.deliver operator _, ?_, ?_⟩
      · intro other otherIn source upstream
        rw [← played.fed other otherIn source upstream]
        rcases eq_or_ne other operator with rfl | different
        · simp
        · simp [different]
      · intro other otherIn logic initial kind inert
        rw [← (played.replays other otherIn logic initial kind inert).1]
        refine ⟨?_, (played.replays other otherIn logic initial kind inert).2⟩
        rcases eq_or_ne other operator with rfl | different
        · simp
        · simp [different]
  | report operator report =>
      obtain rfl := Except.ok.inj stepped
      refine ⟨played.wired.report operator report, ?_, ?_⟩
      · intro other otherIn source upstream
        rw [← played.fed other otherIn source upstream]
        rcases eq_or_ne other operator with rfl | different
        · simp
        · simp [different]
      · intro other otherIn logic initial kind inert
        have before := played.replays other otherIn logic initial kind inert
        refine ⟨?_, before.2⟩
        rcases eq_or_ne other operator with rfl | different
        · simp [before.1, Body.takeReport]
        · simpa [different] using before.1

theorem Played.reaches {context : BuildContext} {worker : Worker K V T S E}
    (built : graph.execute context = .ok worker)
    (run : Reaches (Account.act graph workerId)
      (fun account event => account.allowed graph workerId event)
      { toWorker := worker } account) : account.Played graph :=
  run.invariant (Account.Played graph) (.start built)
    fun _ _ _ _ played allowed stepped => played.step allowed stepped

end

def Drained (reacts : Nat → Bool) (graph : Graph K V T S E)
    (account : Account K V T S E) : Prop :=
  ∀ operator < graph.size, reacts operator = true →
    (account.operators operator).input.queue 0 = []

instance [DecidableEq V] [DecidableEq T] (reacts : Nat → Bool)
    (graph : Graph K V T S E) (account : Account K V T S E) :
    Decidable (account.Drained reacts graph) :=
  inferInstanceAs (Decidable (∀ operator < graph.size, reacts operator = true →
    (account.operators operator).input.queue 0 = []))

section

variable {reacts : Nat → Bool}

/-- Histories only grow towards their meaning. -/
theorem Played.sent_part (played : account.Played graph)
    (reacting : graph.Reacts reacts) {operator : Nat}
    (inGraph : operator < graph.size) :
    account.sent (some operator) <+:
      graph.meaning reacts account.sent graph.size (some operator) := by
  refine reacting.induction (motive := fun source => account.sent source <+:
    graph.meaning reacts account.sent graph.size source) ?_ ?_ ?_ inGraph
  · rw [Graph.meaning_given (by simp)]
  · intro operator inGraph silent
    rw [Graph.meaning_unreacting silent]
  · intro operator inGraph answers logic initial source kind inert upstream ih
    rw [Graph.meaning_reacts inGraph answers kind upstream,
      (played.replays operator inGraph logic initial kind inert).2]
    apply Transducer.outputs_mono
    have taken : account.taken operator <+:
        (account.sent source).filter (graph.carried operator 0) := by
      rw [← played.fed operator inGraph source upstream]
      exact List.prefix_append _ _
    exact taken.trans (ih.filter _)

theorem Played.taken_drained (played : account.Played graph)
    (drained : account.Drained reacts graph) {operator : Nat}
    (inGraph : operator < graph.size) (answers : reacts operator = true)
    {source : Option Nat} (upstream : graph.upstream operator = [source]) :
    account.taken operator =
      (account.sent source).filter (graph.carried operator 0) := by
  have taken := played.fed operator inGraph source upstream
  rwa [drained operator inGraph answers, List.append_nil] at taken

/-- Where nothing waits they have reached it. -/
theorem Played.sent_drained (played : account.Played graph)
    (reacting : graph.Reacts reacts) (drained : account.Drained reacts graph)
    {operator : Nat} (inGraph : operator < graph.size) :
    account.sent (some operator) =
      graph.meaning reacts account.sent graph.size (some operator) := by
  refine reacting.induction (motive := fun source => account.sent source =
    graph.meaning reacts account.sent graph.size source) ?_ ?_ ?_ inGraph
  · rw [Graph.meaning_given (by simp)]
  · intro operator inGraph silent
    rw [Graph.meaning_unreacting silent]
  · intro operator inGraph answers logic initial source kind inert upstream ih
    rw [Graph.meaning_reacts inGraph answers kind upstream,
      (played.replays operator inGraph logic initial kind inert).2,
      played.taken_drained drained inGraph answers upstream, ← ih]

end

end Account

/-! ### Every schedule -/

section

variable [DecidableEq K] [MaybeTime T] [LT T] [DecidableLT T]
  {graph : Graph K V T S E} {reacts : Nat → Bool}

/-- Whatever the schedule, what the operators which react have sent is a part of
their meaning, and all of it once they have nothing left to take. -/
theorem history_meaning {context : BuildContext} {start : Worker K V T S E}
    {account : Account K V T S E} (reacting : graph.Reacts reacts)
    (built : graph.execute context = .ok start)
    (run : Reaches (Account.act graph context.workerId)
      (fun account event => account.allowed graph context.workerId event)
      { toWorker := start } account) :
    (∀ operator < graph.size, account.sent (some operator) <+:
      graph.meaning reacts account.sent graph.size (some operator)) ∧
    (account.Drained reacts graph → ∀ operator < graph.size,
      account.sent (some operator) =
        graph.meaning reacts account.sent graph.size (some operator)) := by
  have played := Account.Played.reaches built run
  exact ⟨fun operator inGraph => played.sent_part reacting inGraph,
    fun drained operator inGraph =>
      played.sent_drained reacting drained inGraph⟩

/-- Two workers whose sources have sent the same end with the same histories,
in whatever order their operators are called. -/
theorem schedule_independent {first second : BuildContext}
    {firstStart secondStart : Worker K V T S E}
    {one other : Account K V T S E} (reacting : graph.Reacts reacts)
    (firstBuilt : graph.execute first = .ok firstStart)
    (secondBuilt : graph.execute second = .ok secondStart)
    (firstRun : Reaches (Account.act graph first.workerId)
      (fun account event => account.allowed graph first.workerId event)
      { toWorker := firstStart } one)
    (secondRun : Reaches (Account.act graph second.workerId)
      (fun account event => account.allowed graph second.workerId event)
      { toWorker := secondStart } other)
    (firstDrained : one.Drained reacts graph)
    (secondDrained : other.Drained reacts graph)
    (root : one.sent none = other.sent none)
    (same : ∀ operator < graph.size, reacts operator = false →
      one.sent (some operator) = other.sent (some operator)) :
    ∀ operator < graph.size,
      one.sent (some operator) = other.sent (some operator) ∧
      (reacts operator = true →
        (one.operators operator).body = (other.operators operator).body) := by
  have here := Account.Played.reaches firstBuilt firstRun
  have there := Account.Played.reaches secondBuilt secondRun
  have sent : ∀ operator < graph.size,
      one.sent (some operator) = other.sent (some operator) := by
    intro operator inGraph
    rw [here.sent_drained reacting firstDrained inGraph,
      there.sent_drained reacting secondDrained inGraph]
    exact Graph.meaning_congr reacting root same inGraph
  refine fun operator inGraph => ⟨sent operator inGraph, fun answers => ?_⟩
  obtain ⟨logic, initial, source, kind, inert, upstream⟩ :=
    reacting operator inGraph answers
  have sources : one.sent source = other.sent source := by
    cases source with
    | none => exact root
    | some earlier =>
        apply sent earlier
        have before := graph.earlier operator inGraph earlier
          (by simp [upstream])
        omega
  rw [(here.replays operator inGraph logic initial kind inert).1,
    (there.replays operator inGraph logic initial kind inert).1,
    here.taken_drained firstDrained inGraph answers upstream,
    there.taken_drained secondDrained inGraph answers upstream, sources]

end

/-! A stream of numbers which is split into the even and the odd ones. -/

def numbers (S : Type) : LogicWrapper Nat Nat Nat S (List Nat) where
  onSchedule given state :=
    (state, given.map fun number => ⟨0, number, number⟩, none)
  onData _ state := (state, [])
  onEpoch _ state := (state, [], none)
  onBarrier _ := []
  onRescale _ state := state
  onSuspend state := state
  onCollect _ state := state
  onAcquire moved state := (state, moved)

def parity : Graph Nat Nat Nat (List Nat) (List Nat) where
  size := 4
  name operator := toString operator
  operatorId operator := operator
  kind
    | 0 => .logic (numbers _).intoLogic []
    | 1 => .logic Library.split []
    | _ => .logic (Library.statelessSink
        fun message taken => taken ++ [message.value]) []
  upstream
    | 0 => [none]
    | 1 => [some 0]
    | _ => [some 1]
  carries
    | 2, _, message => message.value % 2 = 0
    | 3, _, message => message.value % 2 = 1
    | _, _, _ => true
  linked := by decide
  earlier := by
    intro operator inGraph source member
    match operator with
    | 0 => simp at member
    | 1 => simp at member; omega
    | more + 2 => simp at member; omega
  forwards := by
    intro operator inGraph source member
    match operator with
    | 0 => simp at member
    | 1 => simp at member; subst member; rfl
    | more + 2 => simp at member; subst member; rfl

theorem soleWorker_listed :
    (0 : WorkerId) ∈ (IndexSet.ofList [0] : IndexSet WorkerId) := by
  decide

def soleWorker : BuildContext where
  workerId := 0
  workerIds := IndexSet.ofList [0]
  listed := soleWorker_listed

def parityStart : Worker Nat Nat Nat (List Nat) (List Nat) where
  operators := parity.intoRunnable soleWorker
  procedure := none
  persisted := []
  logs operator := Log.start (parity.intoRunnable soleWorker operator)

def callWith (given : List Nat) (operator : Nat) :
    Worker.Event Nat Nat Nat (List Nat) (List Nat) :=
  .step operator ⟨given, 0⟩

/-- The sinks are called before all numbers are there, and a snapshot begins. -/
def parityTrace : List (Worker.Event Nat Nat Nat (List Nat) (List Nat)) :=
  [callWith [1, 2] 0, callWith [] 1, callWith [] 3, callWith [] 1,
    .command .snapshot, callWith [3] 0] ++
    (List.replicate 3 [callWith [] 1, callWith [] 2, callWith [] 3]).flatten

@[irreducible] def parityEnd : Account Nat Nat Nat (List Nat) (List Nat) :=
  replay (Account.act parity 0) { toWorker := parityStart } parityTrace

theorem parity_reacts : parity.Reacts fun operator => decide (operator ≠ 0) := by
  intro operator inGraph reacting
  match operator with
  | 0 => simp at reacting
  | 1 => exact ⟨_, _, _, rfl, fun _ _ => rfl, rfl⟩
  | more + 2 => exact ⟨_, _, _, rfl, fun _ _ => rfl, rfl⟩

theorem parity_meaning :
    (parityEnd.sent (some 0)).filterMap Message.data? =
        [⟨0, 1, 1⟩, ⟨0, 2, 2⟩, ⟨0, 3, 3⟩] ∧
      ∀ operator < parity.size, parityEnd.sent (some operator) =
        parity.meaning (fun operator => decide (operator ≠ 0)) parityEnd.sent
          parity.size (some operator) := by
  have run : Reaches (Account.act parity soleWorker.workerId)
      (fun account event => account.allowed parity soleWorker.workerId event)
      { toWorker := parityStart } parityEnd := by
    unfold parityEnd
    exact Follows.reaches parityTrace .refl (by decide +kernel)
  have built : parity.execute soleWorker = .ok parityStart := rfl
  exact ⟨by decide +kernel,
    (history_meaning parity_reacts built run).2 (by decide +kernel)⟩

end Malstrom.Stream
