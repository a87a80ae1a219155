import Malstrom.Data.Answer
import Malstrom.Operators.StatefulOp
import Malstrom.Snapshot.State

namespace Malstrom.Operators

open Data Snapshot

variable {K V T VO S L : Type}

/-! A stateful operator which is stopped at a barrier and built again. -/

/-- All that the logic remembers is the keyed state. -/
structure StatefulLogic.Forgets (logic : StatefulLogic K V T VO S L) :
    Prop where
  onData : ∀ memory message state,
    (logic.onData memory message state).1 = memory
  onEpoch : ∀ memory time state, (logic.onEpoch memory time state).1 = memory
  onSchedule : ∀ memory state, (logic.onSchedule memory state).1 = memory

/-- What the report of a barrier leaves in the persistence client. -/
def Report.persisted (codec : Codec (IndexMap K S)) :
    Report K S → Option Bytes
  | .persist _ written => some (codec.serializeState written)
  | .nothing | .keys _ | .state .. => none

namespace StatefulOp

def build (codec : Codec (IndexMap K S)) (memory : L)
    (persisted : Option Bytes) : Except StatePanic (OperatorState K S L) :=
  match codec.loadState persisted with
  | .ok state => .ok { state := state.getD .empty, memory := memory }
  | .error panic => .error panic

variable [DecidableEq K]

/-- The operator is scheduled, with a message in its input or without one: what
it sends and what it reports. -/
def call (operator : StatefulOp K V T VO S L) (current : OperatorState K S L)
    (input : Option (Message K V T)) :
    OperatorState K S L × List (Message K VO T) × Report K S :=
  let scheduled := operator.schedule current
  match input with
  | none => (scheduled.1, scheduled.2, .nothing)
  | some message =>
      let received := operator.receive scheduled.1 message
      (received.1, scheduled.2 ++ received.2.1, received.2.2)

variable {operator : StatefulOp K V T VO S L} {current : OperatorState K S L}

omit [DecidableEq K] in
theorem memory_schedule (forgets : operator.logic.Forgets) :
    (operator.schedule current).1.memory = current.memory :=
  forgets.onSchedule current.memory current.state

theorem memory_receive (forgets : operator.logic.Forgets)
    (message : Message K V T) :
    (operator.receive current message).1.memory = current.memory := by
  cases message with
  | data dataMessage => exact forgets.onData _ _ _
  | epoch time => exact forgets.onEpoch _ _ _
  | collect key =>
      simp only [receive]
      split <;> rfl
  | absBarrier | rescale | suspendMarker | interrogate | acquire => rfl

theorem memory_call (forgets : operator.logic.Forgets)
    (input : Option (Message K V T)) :
    (operator.call current input).1.memory = current.memory := by
  cases input with
  | none => exact memory_schedule forgets
  | some message =>
      exact (memory_receive forgets message).trans (memory_schedule forgets)

/-- At a barrier the operator persists the state it goes on with. -/
theorem call_absBarrier (codec : Codec (IndexMap K S)) :
    (operator.call current (some .absBarrier)).2.2.persisted codec =
      some (codec.serializeState
        (operator.call current (some .absBarrier)).1.state) := rfl

omit [DecidableEq K] in
/-- Nothing of the state is lost, not even the order of its keys. -/
theorem build_persisted (codec : Codec (IndexMap K S))
    (current : OperatorState K S L) :
    build codec current.memory (some (codec.serializeState current.state)) =
      .ok current := by
  simp [build]

/-- An operator which was stopped behind a barrier and built again from what it
persisted there answers like one which was never stopped. -/
theorem resumes (forgets : operator.logic.Forgets)
    (codec : Codec (IndexMap K S)) (memory : L) (persisted : Option Bytes)
    (built : OperatorState K S L)
    (isBuilt : build codec memory persisted = .ok built)
    (before after : List (Option (Message K V T))) :
    let stopped := answer operator.call built (before ++ [some .absBarrier])
    ∃ bytes resumed,
      stopped.2.getLast?.bind (fun answered => answered.2.persisted codec) =
        some bytes ∧
      build codec memory (some bytes) = .ok resumed ∧
      answer operator.call built (before ++ some .absBarrier :: after) =
        ((answer operator.call resumed after).1,
          stopped.2 ++ (answer operator.call resumed after).2) := by
  have atStart : built.memory = memory := by
    unfold build at isBuilt
    split at isBuilt
    next => rw [← Except.ok.inj isBuilt]
    next => cases isBuilt
  have kept : (answer operator.call built before).1.memory = memory :=
    answer_invariant
      (fun state : OperatorState K S L => state.memory = memory)
      (fun state input same => (memory_call forgets input).trans same)
      atStart before
  generalize isStopped : (answer operator.call built before).1 = stopped at kept
  have atBarrier : (operator.call stopped (some .absBarrier)).1.memory =
      memory := (memory_call forgets _).trans kept
  let barrier := (operator.call stopped (some .absBarrier)).1
  refine ⟨codec.serializeState barrier.state, barrier, ?_, ?_, ?_⟩
  · simp only [answer_append, answer_cons, answer_nil, isStopped,
      List.getLast?_concat, Option.bind_some]
    exact call_absBarrier codec
  · rw [← atBarrier]
    exact build_persisted codec _
  · simp [answer_append, isStopped, barrier]

end StatefulOp

/-- The sum of the values of each key, which goes with a zero; an epoch emits
them all. -/
def sums : StatefulOp Bool UInt8 Nat UInt8 UInt8 Unit where
  operatorId := 0
  logic := {
    onData := fun _ message sum =>
      ((), if message.value = 0 then none else some (sum + message.value), [])
    onEpoch := fun _ time state =>
      ((), state, state.entries.map fun entry => ⟨entry.1, entry.2, time⟩)
    onSchedule := fun _ state => ((), state, []) }
  default := 0
  encode := byteCodec.toVec
  decode bytes := (byteCodec.fromSlice bytes).getD 0

theorem sums_forgets : sums.logic.Forgets where
  onData _ _ _ := rfl
  onEpoch _ _ _ := rfl
  onSchedule _ _ := rfl

theorem sums_resumes :
    sums.logic.Forgets ∧
    StatefulOp.build mapCodec () none = .ok ⟨.empty, ()⟩ ∧
    ∃ bytes resumed,
      (answer sums.call ⟨.empty, ()⟩ [some (.data ⟨true, 5, 0⟩),
          some (.data ⟨false, 3, 0⟩), some (.data ⟨true, 200, 1⟩),
          some .absBarrier]).2.getLast?.bind
        (fun answered => answered.2.persisted mapCodec) = some bytes ∧
      StatefulOp.build mapCodec () (some bytes) = .ok resumed ∧
      answer sums.call ⟨.empty, ()⟩ [some (.data ⟨true, 5, 0⟩),
          some (.data ⟨false, 3, 0⟩), some (.data ⟨true, 200, 1⟩),
          some .absBarrier, none, some (.data ⟨false, 0, 2⟩),
          some (.epoch 2)] =
        ((answer sums.call resumed [none, some (.data ⟨false, 0, 2⟩),
            some (.epoch 2)]).1,
          (answer sums.call ⟨.empty, ()⟩ [some (.data ⟨true, 5, 0⟩),
            some (.data ⟨false, 3, 0⟩), some (.data ⟨true, 200, 1⟩),
            some .absBarrier]).2 ++
          (answer sums.call resumed [none, some (.data ⟨false, 0, 2⟩),
            some (.epoch 2)]).2) :=
  ⟨sums_forgets, rfl,
    StatefulOp.resumes sums_forgets mapCodec () none ⟨.empty, ()⟩ rfl
      [some (.data ⟨true, 5, 0⟩), some (.data ⟨false, 3, 0⟩),
        some (.data ⟨true, 200, 1⟩)]
      [none, some (.data ⟨false, 0, 2⟩), some (.epoch 2)]⟩

end Malstrom.Operators
