import Malstrom.Channels.Session
import Malstrom.Keyed.Shift
import Malstrom.Keyed.System

namespace Malstrom.Stream

open Data Channels Keyed Operators

variable {K V T S E : Type}

/-! The operators of a stream, as the worker schedules them. -/

structure Call (E : Type) where
  /-- What the logic gets from outside of the worker. -/
  external : E
  /-- Clones of a router's cell which still exist elsewhere. -/
  clones : Nat

/-- The logic of every library operator but the distributor: a part which runs
in each call and one for the message received. -/
structure Logic (K V T S E : Type) where
  onSchedule : E → S → S × List (Message K V T)
  onMessage : Message K V T → S → S × List (Message K V T)
  /-- What is written when a barrier comes. -/
  persist : Option (S → Bytes)
  /-- A sink keeps the barriers, rescales and suspend markers it gets. -/
  forwards : Bool
  scheduleUncounted : ∀ external state,
    ∀ message ∈ (onSchedule external state).2, message.isCounted = false
  messageUncounted : ∀ received state,
    ∀ message ∈ (onMessage received state).2, message.isCounted = false

inductive Body (K V T S E : Type) where
  | logic (logic : Logic K V T S E) (state : S)
  | distributor (partitioner : WorkerPartitioner K)
      (distributor : Distributor K V T)

structure StandardOperator (K V T S E : Type) where
  body : Body K V T S E
  input : Input K V T
  /-- What remote workers have sent to this operator. -/
  mail : Mailbox K V T := fun _ => []
  /-- A suspend marker was sent into the output. -/
  isSuspended : Bool := false

structure Stepped (K V T S E : Type) where
  operator : StandardOperator K V T S E
  taken : Option (Message K V T)
  output : List (Message K V T)
  /-- What was given to the barrier to persist. -/
  written : Option Bytes

namespace Logic

variable [MaybeTime T] [LT T] [DecidableLT T]

def forwarded (logic : Logic K V T S E) (message : Message K V T) :
    List (Message K V T) :=
  if logic.forwards && message.isCounted then [message] else []

def persisted (logic : Logic K V T S E) (message : Message K V T) (state : S) :
    Option Bytes :=
  if message.isBarrier then logic.persist.map fun write => write state else none

def step (logic : Logic K V T S E) (state : S) (external : E)
    (operator : StandardOperator K V T S E) :
    Except RunPanic (Stepped K V T S E) :=
  let scheduled := logic.onSchedule external state
  match operator.input.recv with
  | .error panic => .error (.input panic)
  | .ok (none, next) =>
      .ok { operator := { operator with
              body := .logic logic scheduled.1, input := next }
            taken := none
            output := scheduled.2
            written := none }
  | .ok (some message, next) =>
      let handled := logic.onMessage message scheduled.1
      let output := scheduled.2 ++ handled.2 ++ logic.forwarded message
      .ok { operator := { operator with
              body := .logic logic handled.1
              input := next
              isSuspended := operator.isSuspended ||
                output.any Message.isSuspend }
            taken := some message
            output := output
            written := logic.persisted message scheduled.1 }

end Logic

namespace StandardOperator

variable [DecidableEq K] [MaybeTime T] [LT T] [DecidableLT T]

def step (operator : StandardOperator K V T S E) (thisWorker : WorkerId)
    (call : Call E) : Except RunPanic (Stepped K V T S E) :=
  match operator.body with
  | .logic logic state => logic.step state call.external operator
  | .distributor partitioner distributor =>
      match distributor.run operator.input operator.mail partitioner thisWorker
          call.clones with
      | .error panic => .error panic
      | .ok result =>
          .ok { operator :=
                  { body := .distributor partitioner result.distributor
                    input := result.input
                    mail := result.mail
                    isSuspended := operator.isSuspended ||
                      result.effects.output.any Message.isSuspend }
                taken := result.taken
                output := result.effects.output
                written := none }

def hasQueuedWork (operator : StandardOperator K V T S E) : Bool :=
  operator.input.canProgress

end StandardOperator

/-! What one call takes off its input. -/

structure Turn (K V T E : Type) where
  call : Call E
  /-- What has left each channel. -/
  left : Nat → List (Message K V T)
  taken : Option (Message K V T)
  written : Option Bytes

/-- A call takes one message off one channel, nothing, or one marker off every
channel; the epochs of several channels are merged. -/
inductive Turn.Served (channels : Nat) (turn : Turn K V T E) : Prop
  | one {channel : Nat} {message : Message K V T} (linked : channel < channels)
      (left : turn.left = Function.update (fun _ => []) channel [message])
      (unmarked : message.isMarker = false)
      (returns : plain turn.taken.toList = plain [message])
  | idle (left : turn.left = fun _ => []) (nothing : turn.taken = none)
  | every {marker : Message K V T} (isMarker : marker.isMarker = true)
      (left : ∀ channel < channels, turn.left channel = [marker])
      (taken : turn.taken = some marker)

theorem Turn.Served.mem_left {channels : Nat} {turn : Turn K V T E}
    (served : turn.Served channels) (linked : 0 < channels)
    {message : Message K V T} (taken : turn.taken = some message)
    (noEpoch : message.epoch? = none) :
    ∃ channel < channels, message ∈ turn.left channel := by
  cases served with
  | @one channel queued inRange left unmarked returns =>
      refine ⟨channel, inRange, ?_⟩
      have kept : plain [message] = [message] := by simp [plain, noEpoch]
      rw [taken, Option.toList_some, kept] at returns
      have member : message ∈ plain [queued] := returns ▸ List.mem_cons_self
      simpa [left] using List.mem_of_mem_filter member
  | idle left nothing => rw [nothing] at taken; cases taken
  | @every marker isMarker left isTaken =>
      obtain rfl := Option.some.inj (taken.symm.trans isTaken)
      exact ⟨0, linked, by simp [left 0 linked]⟩

def Stepped.turn (stepped : Stepped K V T S E) (call : Call E)
    (input : Input K V T) : Turn K V T E :=
  { call := call
    left := input.left stepped.operator.input
    taken := stepped.taken
    written := stepped.written }

section

variable [MaybeTime T] [LT T] [DecidableLT T]

theorem Turn.Served.of_recv {input next : Input K V T}
    {taken : Option (Message K V T)} {turn : Turn K V T E}
    (received : input.recv = .ok (taken, next))
    (left : turn.left = input.left next) (isTaken : turn.taken = taken) :
    turn.Served input.receivers.length ∧
      next.receivers.length = input.receivers.length ∧
      ∀ channel, input.queue channel =
        turn.left channel ++ next.queue channel := by
  cases (Input.recv_received received).takes with
  | one served linked head queues same unmarked returns =>
      refine ⟨.one linked ?_ unmarked (by rw [isTaken]; exact returns), same, ?_⟩
      · rw [left, Input.left_pop head queues]
      · rw [left]
        exact Input.split_pop head queues
  | idle served waiting =>
      have nothing : turn.left = fun _ => [] := by
        rw [left]
        funext channel
        simp [Input.left]
      exact ⟨.idle nothing isTaken, rfl, by simp [nothing]⟩
  | every served linked isMarker heads same =>
      refine ⟨.every isMarker ?_ isTaken, same, ?_⟩
      · intro channel linked
        rw [left]
        exact Input.left_markers heads linked
      · rw [left]
        exact Input.split_markers heads same

end

/-! What one call does to the body of its operator. -/

namespace Logic

def advance (logic : Logic K V T S E) (external : E) (state : S) :
    Option (Message K V T) → S
  | none => (logic.onSchedule external state).1
  | some message =>
      (logic.onMessage message (logic.onSchedule external state).1).1

def output (logic : Logic K V T S E) (external : E) (state : S) :
    Option (Message K V T) → List (Message K V T)
  | none => (logic.onSchedule external state).2
  | some message =>
      (logic.onSchedule external state).2 ++
        (logic.onMessage message (logic.onSchedule external state).1).2 ++
          logic.forwarded message

def writes (logic : Logic K V T S E) (external : E) (state : S)
    (taken : Option (Message K V T)) : Option Bytes :=
  taken.bind fun message =>
    logic.persisted message (logic.onSchedule external state).1

theorem counted_output (logic : Logic K V T S E) (external : E) (state : S)
    (taken : Option (Message K V T)) :
    (logic.output external state taken).filter Message.isCounted =
      if logic.forwards then taken.toList.filter Message.isCounted else [] := by
  have scheduled : (logic.onSchedule external state).2.filter
      Message.isCounted = [] := by
    rw [List.filter_eq_nil_iff]
    intro message member
    simp [logic.scheduleUncounted _ _ message member]
  cases taken with
  | none => simp [output, scheduled]
  | some message =>
      have handled : (logic.onMessage message
          (logic.onSchedule external state).1).2.filter
          Message.isCounted = [] := by
        rw [List.filter_eq_nil_iff]
        intro handed member
        simp [logic.messageUncounted _ _ handed member]
      simp only [output, List.filter_append, scheduled, handled, List.nil_append,
        Option.toList_some, forwarded]
      cases logic.forwards <;> cases counted : message.isCounted <;>
        simp [counted]

end Logic

namespace Body

def held : Body K V T S E → List (Message K V T)
  | .logic _ _ => []
  | .distributor _ running => running.held

def pending : Body K V T S E → Bool
  | .logic _ _ => false
  | .distributor _ running => running.localBarrier

def forwards : Body K V T S E → Bool
  | .logic running _ => running.forwards
  | .distributor _ _ => true

def Consistent : Body K V T S E → Prop
  | .logic _ _ => True
  | .distributor partitioner running =>
      running.router.Consistent partitioner

end Body

/-! Reports touch neither markers nor worker sets. -/

section

variable [DecidableEq K]

theorem takeReport_keeps (distributor : Distributor K V T) (report : Report K S) :
    distributor.Keeps (distributor.takeReport report) := by
  unfold Distributor.takeReport
  split
  next =>
    split
    next router isRouter => exact ⟨rfl, rfl, by rw [isRouter]; rfl, by simp⟩
    next => exact .refl _
  next =>
    split
    next router isRouter => exact ⟨rfl, rfl, by rw [isRouter]; rfl, by simp⟩
    next => exact .refl _
  next => exact .refl _
  next => exact .refl _

theorem takeReport_consistent {partitioner : WorkerPartitioner K}
    {distributor : Distributor K V T}
    (consistent : distributor.router.Consistent partitioner)
    (report : Report K S) :
    (distributor.takeReport report).router.Consistent partitioner := by
  unfold Distributor.takeReport
  split
  next =>
    split
    next router isRouter =>
      rw [isRouter] at consistent
      exact InterrogateRouter.consistent_addKeys consistent _
    next => exact consistent
  next =>
    split
    next router isRouter =>
      rw [isRouter] at consistent
      obtain ⟨isNew, version, listed, current⟩ := consistent
      refine ⟨isNew, version, listed, ?_⟩
      intro collect member
      obtain ⟨started, isCurrent, rfl⟩ := Option.map_eq_some_iff.mp member
      exact current started isCurrent
    next => exact consistent
  next => exact consistent
  next => exact consistent

namespace Body

def takeReport (report : Report K S) : Body K V T S E → Body K V T S E
  | .logic running state => .logic running state
  | .distributor partitioner running =>
      .distributor partitioner (running.takeReport report)

variable {body : Body K V T S E} {report : Report K S}

theorem consistent_takeReport (consistent : body.Consistent) :
    (body.takeReport report).Consistent := by
  cases body with
  | logic running state => trivial
  | distributor partitioner running =>
      exact takeReport_consistent consistent report

@[simp] theorem held_takeReport : (body.takeReport report).held = body.held := by
  cases body with
  | logic running state => rfl
  | distributor partitioner running =>
      exact (takeReport_keeps running report).held

@[simp] theorem pending_takeReport :
    (body.takeReport report).pending = body.pending := by
  cases body with
  | logic running state => rfl
  | distributor partitioner running =>
      exact (takeReport_keeps running report).localBarrier

@[simp] theorem forwards_takeReport :
    (body.takeReport report).forwards = body.forwards := by
  cases body with
  | logic running state => rfl
  | distributor partitioner running => rfl

end Body

end

/-! ### One call -/

inductive Ran [DecidableEq K] [MaybeTime T] (thisWorker : WorkerId)
    (call : Call E) : Body K V T S E → Option (Message K V T) →
      Body K V T S E → List (Message K V T) → Option Bytes → Prop
  | logic {logic : Logic K V T S E} {state : S}
      {taken : Option (Message K V T)} :
      Ran thisWorker call (.logic logic state) taken
        (.logic logic (logic.advance call.external state taken))
        (logic.output call.external state taken)
        (logic.writes call.external state taken)
  | distributor {partitioner : WorkerPartitioner K}
      {before after : Distributor K V T} {taken : Option (Message K V T)}
      {output : List (Message K V T)}
      (stages : Stages partitioner thisWorker before taken.toList after output) :
      Ran thisWorker call (.distributor partitioner before) taken
        (.distributor partitioner after) output none

namespace StandardOperator

variable [DecidableEq K] [MaybeTime T] [LT T] [DecidableLT T]
  {operator : StandardOperator K V T S E} {thisWorker : WorkerId}
  {call : Call E} {stepped : Stepped K V T S E}

theorem step_distributed {partitioner : WorkerPartitioner K}
    {running : Distributor K V T}
    (body : operator.body = .distributor partitioner running)
    (ran : operator.step thisWorker call = .ok stepped) :
    ∃ result, running.run operator.input operator.mail partitioner thisWorker
        call.clones = .ok result ∧
      stepped.operator.body = .distributor partitioner result.distributor ∧
      stepped.operator.input = result.input ∧
      stepped.operator.mail = result.mail ∧ stepped.taken = result.taken ∧
      stepped.output = result.effects.output ∧ stepped.written = none := by
  simp only [step, body] at ran
  split at ran
  next => simp at ran
  next result runs =>
    obtain rfl := Except.ok.inj ran
    exact ⟨result, runs, rfl, rfl, rfl, rfl, rfl, rfl⟩

theorem step_ran (consistent : operator.body.Consistent)
    (ran : operator.step thisWorker call = .ok stepped) :
    Ran thisWorker call operator.body stepped.taken stepped.operator.body
        stepped.output stepped.written ∧
      if operator.body.pending then
        stepped.taken = none ∧ stepped.operator.input = operator.input
      else operator.input.recv = .ok (stepped.taken, stepped.operator.input) := by
  cases body : operator.body with
  | logic logic state =>
      simp only [step, body, Logic.step] at ran
      split at ran
      next => simp at ran
      next next' idle =>
        obtain rfl := Except.ok.inj ran
        refine ⟨.logic, ?_⟩
        simpa [Body.pending] using idle
      next message next' took =>
        obtain rfl := Except.ok.inj ran
        refine ⟨.logic, ?_⟩
        simpa [Body.pending] using took
  | distributor partitioner distributor =>
      rw [body] at consistent
      obtain ⟨result, runs, after, input, -, taken, output, written⟩ :=
        step_distributed body ran
      obtain ⟨stages, received⟩ := Distributor.run_stages consistent runs
      rw [after, input, taken, output, written]
      exact ⟨.distributor stages, received⟩

theorem step_served (consistent : operator.body.Consistent)
    (ran : operator.step thisWorker call = .ok stepped) :
    (stepped.turn call operator.input).Served operator.input.receivers.length ∧
      stepped.operator.input.receivers.length =
        operator.input.receivers.length ∧
      ∀ channel, operator.input.queue channel =
        (stepped.turn call operator.input).left channel ++
          stepped.operator.input.queue channel := by
  have received := (step_ran consistent ran).2
  split at received
  next =>
    obtain ⟨nothing, same⟩ := received
    have left : (stepped.turn call operator.input).left = fun _ => [] := by
      funext channel
      simp [Stepped.turn, same, Input.left]
    rw [same]
    exact ⟨.idle left nothing, rfl, by simp [left]⟩
  next => exact Turn.Served.of_recv received rfl rfl

end StandardOperator

namespace Ran

variable [DecidableEq K] [MaybeTime T] {thisWorker : WorkerId} {call : Call E}
  {before after : Body K V T S E} {taken : Option (Message K V T)}
  {output : List (Message K V T)} {written : Option Bytes}

theorem of_logic {logic : Logic K V T S E} {state : S}
    (ran : Ran thisWorker call (.logic logic state) taken after output
      written) :
    after = .logic logic (logic.advance call.external state taken) ∧
      output = logic.output call.external state taken ∧
      written = logic.writes call.external state taken := by
  cases ran with
  | logic => exact ⟨rfl, rfl, rfl⟩

theorem of_distributor {partitioner : WorkerPartitioner K}
    {distributor : Distributor K V T}
    (ran : Ran thisWorker call (.distributor partitioner distributor) taken
      after output written) :
    ∃ later, after = .distributor partitioner later ∧
      Stages partitioner thisWorker distributor taken.toList later output ∧
      written = none := by
  cases ran with
  | distributor stages => exact ⟨_, rfl, stages, rfl⟩

theorem consistent (ran : Ran thisWorker call before taken after output written)
    (consistent : before.Consistent) : after.Consistent := by
  cases ran with
  | logic => trivial
  | distributor stages =>
      exact (stages.shifts (motive := fun _ _ _ _ => True)
        (fun _ => trivial) (fun _ _ _ => trivial) consistent).2

theorem forwards (ran : Ran thisWorker call before taken after output written) :
    after.forwards = before.forwards := by
  cases ran with
  | logic => rfl
  | distributor stages => rfl

theorem counted (ran : Ran thisWorker call before taken after output written)
    (consistent : before.Consistent) {message : Message K V T}
    (isCounted : message.isCounted = true)
    (member : message ∈ output ∨ message ∈ after.held) :
    message ∈ taken ∨ message ∈ before.held := by
  cases ran with
  | @logic logic state =>
      have handed : message ∈
          (logic.output call.external state taken).filter
            Message.isCounted := by
        simpa [Body.held, isCounted] using member
      rw [logic.counted_output] at handed
      split at handed
      next => exact .inl (by simpa [isCounted] using handed)
      next => simp at handed
  | distributor stages =>
      have kept := stages.counted consistent isCounted member
      simpa [Body.held] using kept

theorem barriers (ran : Ran thisWorker call before taken after output written)
    (consistent : before.Consistent) (forwards : before.forwards = true) :
    taken.toList.countP Message.isBarrier + before.pending.toNat =
      output.countP Message.isBarrier + after.pending.toNat := by
  cases ran with
  | @logic logic state =>
      have both : ∀ message : Message K V T,
          (message.isBarrier && message.isCounted) = message.isBarrier := by
        intro message
        cases message <;> rfl
      have barriers : ∀ messages : List (Message K V T),
          messages.countP Message.isBarrier =
            (messages.filter Message.isCounted).countP Message.isBarrier := by
        intro messages
        rw [List.countP_filter]
        exact List.countP_congr fun message _ => by
          simpa using (congrArg (· = true) (both message)).symm
      have forwards : logic.forwards = true := forwards
      rw [barriers (logic.output _ _ _), logic.counted_output, if_pos forwards,
        ← barriers]
      rfl
  | distributor stages => exact stages.barriers consistent

end Ran

end Malstrom.Stream
