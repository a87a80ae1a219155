import Malstrom.Data.Closed
import Malstrom.Data.Transition
import Malstrom.Stream.Library
import Malstrom.Stream.Snapshot

namespace Malstrom.Stream

open Data Channels Keyed Operators

variable {K V T S L U E : Type}

/-! A keyed region: the operators between a distributor and the sinks, and the
cells of the `Collect`s which go through it. -/

section

variable [DecidableEq K] {key : K} {message : Message K V T}

theorem concerns_iff : message.concerns key = true ↔
    message.key? = some key ∨ message = .collect key := by
  cases message <;> simp [Message.concerns, Message.key?, Message.isCollect]

theorem isCollect_iff :
    message.isCollect key = true ↔ message = .collect key := by
  cases message <;> simp [Message.isCollect]

theorem concerns_of_isCollect (isCollect : message.isCollect key = true) :
    message.concerns key = true :=
  concerns_iff.mpr (.inr (isCollect_iff.mp isCollect))

theorem not_isCollect (elsewhere : message.concerns key = false) :
    message.isCollect key = false :=
  (Bool.or_eq_false_iff.mp elsewhere).2

theorem plain_of_concerns (concerns : message.concerns key = true) :
    plain [message] = [message] ∧ message.isMarker = false := by
  cases message <;>
    simp_all [Message.concerns, Message.key?, Message.isCollect, plain,
      Message.epoch?, Message.isMarker]

end

/-! ### Keyed operators -/

/-- An operator of a region.  A stateful one has its states in what the worker
keeps for it. -/
inductive Member (K V T U E : Type) : Type 1 where
  | stateful {S L : Type} (operator : StatefulOp K V T V S L)
      (encode : IndexMap K S → Bytes) (get : U → OperatorState K S L)
      (put : OperatorState K S L → U)
  | stateless (logic : Logic K V T U E)

namespace Member

variable [DecidableEq K]

def logic : Member K V T U E → Logic K V T U E
  | .stateful operator encode get put =>
      (Library.statefulOp operator encode).within get put
  | .stateless logic => logic

/-- The state of a key, as it is written into a cell. -/
def held (key : K) : Member K V T U E → U → Option Bytes
  | .stateful operator _ get _, state =>
      ((get state).state.get? key).map operator.encode
  | .stateless _, _ => none

/-- What an operator which takes a clone of a `Collect` writes into its cell. -/
def addState (key : K) (member : Member K V T U E) (state : U)
    (cell : IndexMap OperatorId Bytes) : IndexMap OperatorId Bytes :=
  match member with
  | .stateful operator _ get _ =>
      match (operator.receive (get state) (.collect key)).2.2 with
      | .state operatorId keyState => cell.insert operatorId keyState
      | _ => cell
  | .stateless _ => cell

def Named (operatorId : OperatorId) : Member K V T U E → Prop
  | .stateful operator _ _ _ => operator.operatorId = operatorId
  | .stateless _ => True

end Member

/-- What a keyed operator does about a key of which it has no state: it leaves it
at that and sends nothing of the key unless it gets something.  A `Collect` takes
the state away. -/
structure Logic.Keyed [DecidableEq K] (logic : Logic K V T S E) (key : K)
    (held : S → Option Bytes) : Prop where
  scheduled : ∀ external state, held state = none →
    held (logic.onSchedule external state).1 = none ∧
      ∀ message ∈ (logic.onSchedule external state).2,
        message.concerns key = false
  scheduleCollect : ∀ external state,
    ∀ message ∈ (logic.onSchedule external state).2,
      message.isCollect key = false
  received : ∀ received state, received.concerns key = false →
    held state = none →
    held (logic.onMessage received state).1 = none ∧
      ∀ message ∈ (logic.onMessage received state).2,
        message.concerns key = false
  receiveCollect : ∀ received state, received.isCollect key = false →
    ∀ message ∈ (logic.onMessage received state).2,
      message.isCollect key = false
  collected : ∀ state,
    held (logic.onMessage (.collect key) state).1 = none
  uncollected : ∀ external state,
    held (logic.onSchedule external state).1 = none →
    (logic.onMessage (.collect key) (logic.onSchedule external state).1).1 =
      (logic.onSchedule external state).1

/-- A clone of a `Collect` is sent on. -/
def Logic.Passes [DecidableEq K] (logic : Logic K V T S E) (key : K) : Prop :=
  ∀ state, (logic.onMessage (.collect key) state).2 = [.collect key]

/-- What is asked of the user: a stateful logic does what its documentation says,
any other remembers nothing about a key. -/
def Member.Keyed [DecidableEq K] (key : K) : Member K V T U E → Prop
  | .stateful operator _ get put => (∀ current, get (put current) = current) ∧
      operator.logic.KeepsKeys ∧ operator.logic.KeepsRecords
  | .stateless logic => logic.Keyed key fun _ => none

section

variable [DecidableEq K] {key : K}

theorem Logic.Keyed.within {logic : Logic K V T S E} {held : S → Option Bytes}
    (keyed : logic.Keyed key held) {get : U → S} {put : S → U}
    (getPut : ∀ state, get (put state) = state) :
    (logic.within get put).Keyed key fun state => held (get state) where
  scheduled external state unheld := by
    simpa only [Logic.within, getPut] using
      keyed.scheduled external (get state) unheld
  scheduleCollect external state := keyed.scheduleCollect external (get state)
  received received state elsewhere unheld := by
    simpa only [Logic.within, getPut] using
      keyed.received received (get state) elsewhere unheld
  receiveCollect received state := keyed.receiveCollect received (get state)
  collected state := by
    simpa only [Logic.within, getPut] using keyed.collected (get state)
  uncollected external state unheld := by
    simp only [Logic.within, getPut] at unheld ⊢
    rw [keyed.uncollected external (get state) unheld]

theorem concerns_data {record : DataMessage K V T} :
    (Message.data record).concerns key = true ↔ record.key = key := by
  simp [concerns_iff, Message.key?]

theorem unheld_iff {operator : StatefulOp K V T V S L}
    {state : IndexMap K S} :
    (state.get? key).map operator.encode = none ↔ key ∉ state := by
  rw [Option.map_eq_none_iff, IndexMap.get?_eq_none]

theorem emit_elsewhere {records : List (DataMessage K V T)}
    (elsewhere : ∀ record ∈ records, record.key ≠ key) :
    ∀ message ∈ StatefulOp.emit records, message.concerns key = false := by
  intro message member
  obtain ⟨record, isRecord, rfl⟩ := List.mem_map.mp member
  rw [Bool.eq_false_iff, ne_eq, concerns_data]
  exact elsewhere record isRecord

theorem not_isCollect_of_mem_emit {records : List (DataMessage K V T)} :
    ∀ message ∈ StatefulOp.emit records, message.isCollect key = false := by
  intro message member
  obtain ⟨record, -, rfl⟩ := List.mem_map.mp member
  rfl

/-- An operator sends something of a key which it was given or has state of. -/
theorem receive_elsewhere {operator : StatefulOp K V T V S L}
    (records : operator.logic.KeepsRecords) {current : OperatorState K S L}
    {received : Message K V T} (elsewhere : received.concerns key = false)
    (unheld : key ∉ current.state) :
    ∀ message ∈ (operator.receive current received).2.1,
      message.concerns key = false := by
  cases received with
  | data record =>
      rw [Bool.eq_false_iff, ne_eq, concerns_data] at elsewhere
      apply emit_elsewhere
      intro emitted member
      rwa [records.onData _ _ _ emitted member]
  | epoch time =>
      intro message member
      rcases List.mem_append.mp member with isRecord | isEpoch
      · refine emit_elsewhere ?_ message isRecord
        rintro record member rfl
        exact unheld (records.onEpoch _ _ _ record member)
      · rw [List.mem_singleton.mp isEpoch]
        exact elsewhere
  | collect collected =>
      intro message member
      have same : message = .collect collected := by
        simp only [StatefulOp.receive] at member
        split at member <;> exact List.mem_singleton.mp member
      rwa [same]
  | acquire moved =>
      intro message member
      rw [List.mem_singleton.mp member]
      exact elsewhere
  | interrogate | absBarrier | rescale | suspendMarker =>
      intro message member
      rw [List.mem_singleton.mp member]
      rfl

theorem receive_collects {operator : StatefulOp K V T V S L}
    {current : OperatorState K S L} {received : Message K V T}
    (other : received.isCollect key = false) :
    ∀ message ∈ (operator.receive current received).2.1,
      message.isCollect key = false := by
  cases received with
  | data record => exact not_isCollect_of_mem_emit
  | epoch time =>
      intro message member
      rcases List.mem_append.mp member with isRecord | isEpoch
      · exact not_isCollect_of_mem_emit message isRecord
      · rw [List.mem_singleton.mp isEpoch]
        rfl
  | collect collected =>
      intro message member
      have same : message = .collect collected := by
        simp only [StatefulOp.receive] at member
        split at member <;> exact List.mem_singleton.mp member
      rwa [same]
  | acquire | interrogate | absBarrier | rescale | suspendMarker =>
      intro message member
      rw [List.mem_singleton.mp member]
      rfl

theorem statefulOp_keyed {operator : StatefulOp K V T V S L}
    {encode : IndexMap K S → Bytes} (keeps : operator.logic.KeepsKeys)
    (records : operator.logic.KeepsRecords) :
    (Library.statefulOp (E := E) operator encode).Keyed key
      fun current => (current.state.get? key).map operator.encode where
  scheduled external current unheld := by
    rw [unheld_iff] at unheld
    refine ⟨unheld_iff.mpr (mt (StatefulOp.mem_schedule keeps) unheld), ?_⟩
    apply emit_elsewhere
    rintro record member rfl
    exact unheld (records.onSchedule _ _ record member)
  scheduleCollect external current := not_isCollect_of_mem_emit
  received received current elsewhere unheld := by
    rw [unheld_iff] at unheld
    constructor
    · refine unheld_iff.mpr (fun member => ?_)
      rcases StatefulOp.mem_receive keeps member with before | isKey
      · exact unheld before
      · rw [concerns_iff.mpr (.inl isKey)] at elsewhere
        cases elsewhere
    · intro message member
      exact receive_elsewhere records elsewhere unheld message
        (List.mem_of_mem_filter member)
  receiveCollect received current other message member :=
    receive_collects other message (List.mem_of_mem_filter member)
  collected current :=
    unheld_iff.mpr StatefulOp.not_mem_receive_collect
  uncollected external current unheld := by
    have none : (operator.schedule current).1.state.get? key = none :=
      Option.map_eq_none_iff.mp unheld
    simp [Library.statefulOp, StatefulOp.receive, none]

theorem statefulOp_passes (operator : StatefulOp K V T V S L)
    (encode : IndexMap K S → Bytes) :
    (Library.statefulOp (E := E) operator encode).Passes key := by
  intro current
  simp only [Library.statefulOp, StatefulOp.receive]
  split <;> rfl

variable {member : Member K V T U E}

theorem Member.Keyed.logic (keyed : member.Keyed key) :
    member.logic.Keyed key (member.held key) := by
  cases member with
  | stateful operator encode get put =>
      obtain ⟨getPut, keeps, records⟩ := keyed
      exact (statefulOp_keyed keeps records).within getPut
  | stateless logic => exact keyed

/-- An operator which remembers no key and sends of a key what it was given. -/
theorem Logic.Keyed.of_stateless {logic : Logic K V T S E}
    (idle : ∀ external state, logic.onSchedule external state = (state, []))
    (follows : ∀ received state,
      ∀ message ∈ (logic.onMessage received state).2,
        (message.concerns key = true → received.concerns key = true) ∧
        (message.isCollect key = true → received.isCollect key = true))
    (kept : ∀ state, (logic.onMessage (.collect key) state).1 = state) :
    logic.Keyed key fun _ => none where
  scheduled external state _ := by simp [idle]
  scheduleCollect external state := by simp [idle]
  received received state elsewhere _ := by
    refine ⟨rfl, fun message member => ?_⟩
    have given := mt (follows received state message member).1
    rw [Bool.not_eq_true, elsewhere] at given
    simpa using given
  receiveCollect received state other message member := by
    have given := mt (follows received state message member).2
    rw [Bool.not_eq_true, other] at given
    simpa using given
  collected _ := rfl
  uncollected external state _ := kept _

namespace Library

omit [DecidableEq K] in
theorem mem_passOn {received message : Message K V T}
    (member : message ∈ passOn received) : message = received := by
  cases received <;> simp_all [passOn]

theorem split_keyed : (split : Logic K V T S E).Keyed key fun _ => none := by
  refine .of_stateless (fun _ _ => rfl) ?_ (fun _ => rfl)
  intro received state message member
  rw [mem_passOn member]
  exact ⟨id, id⟩

theorem statelessOp_keyed
    {onData : DataMessage K V T → S → S × List (DataMessage K V T)}
    {onEpoch : T → S → S × List (DataMessage K V T)}
    (own : ∀ record state, ∀ emitted ∈ (onData record state).2,
      emitted.key = record.key)
    (silent : ∀ time state, (onEpoch time state).2 = []) :
    (statelessOp (E := E) onData onEpoch).Keyed key fun _ => none := by
  refine .of_stateless (fun _ _ => rfl) ?_ (fun _ => rfl)
  intro received state message member
  cases received with
  | data record =>
      obtain ⟨emitted, isEmitted, rfl⟩ : ∃ emitted ∈ (onData record state).2,
          .data emitted = message := by simpa [statelessOp, sends] using member
      rw [concerns_data, concerns_data, own record state emitted isEmitted]
      exact ⟨id, id⟩
  | epoch time =>
      obtain rfl : message = .epoch time := by
        simpa [statelessOp, sends, silent] using member
      exact ⟨id, id⟩
  | absBarrier | rescale | suspendMarker => cases member
  | interrogate | collect | acquire =>
      rw [List.mem_singleton.mp member]
      exact ⟨id, id⟩

theorem assignTimestamps_keyed [DecidableEq T]
    (assigner : DataMessage K V T → S → S × T) (max maxOut : T) :
    (assignTimestamps (E := E) assigner max maxOut).Keyed key fun _ => none := by
  refine .of_stateless (fun _ _ => rfl) ?_ (fun _ => rfl)
  intro received state message member
  cases received with
  | data record =>
      rw [List.mem_singleton.mp member, concerns_data, concerns_data]
      exact ⟨id, id⟩
  | epoch time =>
      have isEpoch : message = .epoch maxOut := by
        simp only [assignTimestamps] at member
        split at member
        next => exact List.mem_singleton.mp member
        next => cases member
      rw [isEpoch]
      exact ⟨id, id⟩
  | absBarrier | rescale | suspendMarker => cases member
  | interrogate | collect | acquire =>
      rw [List.mem_singleton.mp member]
      exact ⟨id, id⟩

theorem generateEpochs_keyed [LT T] [DecidableLT T]
    (gen : DataMessage K V T → Option T → Option T) (onTime late : V → V)
    (encode : Option T → Bytes) :
    (generateEpochs (E := E) gen onTime late encode).Keyed key
      fun _ => none := by
  refine .of_stateless (fun _ _ => rfl) ?_ (fun _ => rfl)
  intro received prevEpoch message member
  cases received with
  | data record =>
      have sent : (∃ value, message = .data { record with value := value }) ∨
          ∃ epoch, message = .epoch epoch := by
        simp only [generateEpochs] at member
        split at member
        · exact .inl ⟨_, List.mem_singleton.mp member⟩
        · simp only [List.mem_cons, List.not_mem_nil, or_false] at member
          exact member.imp (fun same => ⟨_, same⟩) fun same => ⟨_, same⟩
        · split at member <;>
            simp only [List.mem_cons, List.not_mem_nil, or_false] at member
          · exact member.imp (fun same => ⟨_, same⟩) fun same => ⟨_, same⟩
          · exact .inl ⟨_, member⟩
      rcases sent with ⟨value, rfl⟩ | ⟨epoch, rfl⟩
      · rw [concerns_data, concerns_data]
        exact ⟨id, id⟩
      · exact ⟨fun concerns => absurd concerns Bool.false_ne_true, id⟩
  | epoch time =>
      obtain ⟨epoch, rfl⟩ : ∃ epoch, message = .epoch epoch := by
        simp only [generateEpochs] at member
        split at member
        · exact ⟨_, List.mem_singleton.mp member⟩
        · split at member
          · exact ⟨_, List.mem_singleton.mp member⟩
          · cases member
      exact ⟨id, id⟩
  | absBarrier | rescale | suspendMarker => cases member
  | interrogate | collect | acquire =>
      rw [List.mem_singleton.mp member]
      exact ⟨id, id⟩

theorem statelessSink_keyed (sink : DataMessage K V T → S → S) :
    (statelessSink (E := E) sink).Keyed key fun _ => none := by
  refine .of_stateless (fun _ _ => rfl) ?_ (fun _ => rfl)
  intro received state message member
  cases received <;> cases member

end Library

theorem addState_eq {operatorId : OperatorId} (named : member.Named operatorId)
    (state : U) (cell : IndexMap OperatorId Bytes) :
    member.addState key state cell = match member.held key state with
      | some keyState => cell.insert operatorId keyState
      | none => cell := by
  cases member with
  | stateful operator encode get put =>
      obtain rfl := named
      simp only [Member.addState, Member.held, StatefulOp.receive]
      cases (get state).state.get? key <;> rfl
  | stateless logic => rfl

end

/-! ### Regions -/

structure Region (K V T U E : Type) [DecidableEq K]
    extends Graph K V T U E where
  member : Nat → Member K V T U E
  initial : Nat → U
  built : ∀ operator < size,
    kind operator = .logic (member operator).logic (initial operator)
  named : ∀ operator < size, (member operator).Named (operatorId operator)

/-- A worker's region with what came into it and the cell of the last `Collect`
of each key. -/
structure Flow (K V T U E : Type) extends Worker K V T U E where
  entered : List (Message K V T) := []
  cells : K → IndexMap OperatorId Bytes := fun _ => .empty

inductive Flow.Event (K V T E : Type) where
  | enter (message : Message K V T)
  | step (operator : Nat) (call : Call E)

namespace Flow

variable [DecidableEq K]

/-- A new `Collect` has a new cell. -/
def enter (region : Region K V T U E) (flow : Flow K V T U E)
    (message : Message K V T) : Flow K V T U E where
  toWorker := flow.toWorker.hand region.toGraph none [message]
  entered := flow.entered ++ [message]
  cells := match message with
    | .collect key => Function.update flow.cells key .empty
    | _ => flow.cells

def collect (region : Region K V T U E) (flow : Flow K V T U E)
    (operator : Nat) (call : Call E) (taken : Option (Message K V T)) :
    K → IndexMap OperatorId Bytes :=
  match taken, (flow.operators operator).body with
  | some (.collect key), .logic logic state =>
      Function.update flow.cells key ((region.member operator).addState key
        (logic.onSchedule call.external state).1 (flow.cells key))
  | _, _ => flow.cells

def called (region : Region K V T U E) (flow : Flow K V T U E) (operator : Nat)
    (call : Call E) (stepped : Stepped K V T U E) : Flow K V T U E where
  toWorker := (flow.toWorker.install region.toGraph operator call stepped).hand
    region.toGraph (some operator) stepped.output
  entered := flow.entered
  cells := flow.collect region operator call stepped.taken

variable [MaybeTime T] [LT T] [DecidableLT T]

def act (region : Region K V T U E) (workerId : WorkerId)
    (flow : Flow K V T U E) :
    Event K V T E → Except RunPanic (Flow K V T U E)
  | .enter message => .ok (flow.enter region message)
  | .step operator call =>
      match (flow.operators operator).step workerId call with
      | .error panic => .error panic
      | .ok stepped => .ok (flow.called region operator call stepped)

end Flow

def StandardOperator.upcoming [MaybeTime T] [LT T] [DecidableLT T]
    (operator : StandardOperator K V T S E) : Option (Message K V T) :=
  match operator.input.recv with
  | .ok (taken, _) => taken
  | .error _ => none

namespace Flow

variable [DecidableEq K]

/-- No state comes in, and after its `Collect` nothing of the key. -/
def Allowed (region : Region K V T U E) (key : K) (flow : Flow K V T U E) :
    Event K V T E → Prop
  | .enter message => message.isAcquire = false ∧
      (.collect key ∈ flow.entered → message.concerns key = false)
  | .step operator _ => operator < region.size

/-- No operator whose state of the key has been collected takes a record of the
key. -/
def Undivided [MaybeTime T] [LT T] [DecidableLT T]
    (region : Region K V T U E) (key : K) (flow : Flow K V T U E) :
    Event K V T E → Prop
  | .enter _ => True
  | .step operator _ => ∀ message ∈ (flow.operators operator).upcoming,
      message.key? = some key →
        (flow.cells key).get? (region.operatorId operator) = none

instance [DecidableEq V] [DecidableEq T] (region : Region K V T U E) (key : K)
    (flow : Flow K V T U E) :
    (event : Event K V T E) → Decidable (flow.Allowed region key event)
  | .enter message => inferInstanceAs (Decidable (message.isAcquire = false ∧
      (.collect key ∈ flow.entered → message.concerns key = false)))
  | .step operator _ => inferInstanceAs (Decidable (operator < region.size))

instance [MaybeTime T] [LT T] [DecidableLT T] (region : Region K V T U E)
    (key : K) (flow : Flow K V T U E) :
    (event : Event K V T E) → Decidable (flow.Undivided region key event)
  | .enter _ => isTrue trivial
  | .step operator _ => inferInstanceAs
      (Decidable (∀ message ∈ (flow.operators operator).upcoming,
        message.key? = some key →
          (flow.cells key).get? (region.operatorId operator) = none))

/-- The owners of the cell of a `Collect`: the router and the clones in the
region. -/
def strongCount (region : Region K V T U E) (key : K) (flow : Flow K V T U E) :
    Nat :=
  1 + ((List.range region.size).map fun operator =>
    ((flow.operators operator).input.receivers.map fun upstream =>
      upstream.receiver.countP (Message.isCollect key)).sum).sum

/-- The `Collect` of the key has come in and can be unwrapped. -/
def Unwrapped (region : Region K V T U E) (key : K) (flow : Flow K V T U E) :
    Prop :=
  .collect key ∈ flow.entered ∧ flow.strongCount region key = 1

instance [DecidableEq V] [DecidableEq T] (region : Region K V T U E) (key : K)
    (flow : Flow K V T U E) : Decidable (flow.Unwrapped region key) :=
  inferInstanceAs (Decidable (_ ∧ _))

end Flow

/-- A call, as if no clone of a `Collect` of the key had been there. -/
def Turn.without [DecidableEq K] (key : K) (turn : Turn K V T E) :
    Turn K V T E :=
  { turn with taken := turn.taken.filter fun message =>
      !message.isCollect key }

/-- The cell has the state of the operator at a call which took a clone, as if
there had not been any clone before, and no record of the key came later. -/
def Flow.Gathered [DecidableEq K] (region : Region K V T U E) (key : K)
    (flow : Flow K V T U E) (operator : Nat) : Prop :=
  let member := region.member operator
  ∃ before turn after,
    (flow.logs operator).turns = before ++ turn :: after ∧
    turn.taken = some (.collect key) ∧
    (∀ later ∈ after, ∀ message ∈ later.taken, message.key? ≠ some key) ∧
    (flow.cells key).get? (region.operatorId operator) = member.held key
      (member.logic.replay (region.initial operator)
        ((before ++ [turn]).map (Turn.without key)))

/-- The cell has for each operator the state which all records of the key lead
to, no operator has state of the key, and none of its records is left. -/
structure Flow.Complete [DecidableEq K] (region : Region K V T U E) (key : K)
    (flow : Flow K V T U E) : Prop where
  gathered : ∀ operator < region.size, flow.Gathered region key operator
  released : ∀ operator < region.size, ∃ state,
    (flow.operators operator).body =
        .logic (region.member operator).logic state ∧
      (region.member operator).held key state = none
  drained : ∀ operator < region.size, ∀ channel,
    ∀ message ∈ (flow.operators operator).input.queue channel,
      message.concerns key = false

end Malstrom.Stream
