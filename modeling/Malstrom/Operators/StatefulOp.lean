import Malstrom.Types

namespace Malstrom.Operators

open Data

variable {K V T VO S L : Type}

/-- The user's part of a stateful operator.  `L` is what the logic remembers
besides the keyed state; the lists are the records it emits. -/
structure StatefulLogic (K V T VO S L : Type) where
  onData : L → DataMessage K V T → S → L × Option S × List (DataMessage K VO T)
  onEpoch : L → T → IndexMap K S →
    L × IndexMap K S × List (DataMessage K VO T)
  onSchedule : L → IndexMap K S →
    L × IndexMap K S × List (DataMessage K VO T)

/-- The logic gives no state to a key which has none, except by a record. -/
structure StatefulLogic.KeepsKeys (logic : StatefulLogic K V T VO S L) :
    Prop where
  onEpoch : ∀ memory time (state : IndexMap K S) key,
    key ∈ (logic.onEpoch memory time state).2.1 → key ∈ state
  onSchedule : ∀ memory (state : IndexMap K S) key,
    key ∈ (logic.onSchedule memory state).2.1 → key ∈ state

/-- The logic emits records of the key it was given, or of keys it has state of. -/
structure StatefulLogic.KeepsRecords (logic : StatefulLogic K V T VO S L) :
    Prop where
  onData : ∀ memory message state,
    ∀ record ∈ (logic.onData memory message state).2.2,
      record.key = message.key
  onEpoch : ∀ memory time (state : IndexMap K S),
    ∀ record ∈ (logic.onEpoch memory time state).2.2, record.key ∈ state
  onSchedule : ∀ memory (state : IndexMap K S),
    ∀ record ∈ (logic.onSchedule memory state).2.2, record.key ∈ state

structure StatefulOp (K V T VO S L : Type) where
  operatorId : OperatorId
  logic : StatefulLogic K V T VO S L
  /-- State of a key which has none. -/
  default : S
  encode : S → Bytes
  decode : Bytes → S

structure OperatorState (K S L : Type) where
  state : IndexMap K S
  memory : L

/-- What an operator writes into the cell a message points to. -/
inductive Report (K S : Type) where
  | nothing
  | keys (keys : List K)
  | state (operatorId : OperatorId) (state : Bytes)
  | persist (operatorId : OperatorId) (state : IndexMap K S)

namespace StatefulOp

def emit (records : List (DataMessage K VO T)) : List (Message K VO T) :=
  records.map .data

def schedule (operator : StatefulOp K V T VO S L)
    (current : OperatorState K S L) :
    OperatorState K S L × List (Message K VO T) :=
  let result := operator.logic.onSchedule current.memory current.state
  ({ state := result.2.1, memory := result.1 }, emit result.2.2)

def receive [DecidableEq K] (operator : StatefulOp K V T VO S L)
    (current : OperatorState K S L) (message : Message K V T) :
    OperatorState K S L × List (Message K VO T) × Report K S :=
  match message with
  | .data dataMessage =>
      let keyState :=
        (current.state.get? dataMessage.key).getD operator.default
      let result := operator.logic.onData current.memory dataMessage keyState
      let removed := current.state.swapRemove dataMessage.key
      ({ state := match result.2.1 with
          | some newState => removed.insert dataMessage.key newState
          | none => removed
         memory := result.1 },
        emit result.2.2, .nothing)
  | .interrogate => (current, [.interrogate], .keys current.state.keys)
  | .collect key =>
      match current.state.get? key with
      | some keyState =>
          ({ current with state := current.state.swapRemove key },
            [.collect key],
            .state operator.operatorId (operator.encode keyState))
      | none => (current, [.collect key], .nothing)
  | .acquire acquire =>
      let taken := acquire.takeState operator.operatorId
      ({ current with
          state := match taken.1 with
            | some (key, keyState) =>
                current.state.insert key (operator.decode keyState)
            | none => current.state },
        [.acquire taken.2], .nothing)
  | .absBarrier =>
      (current, [.absBarrier], .persist operator.operatorId current.state)
  | .rescale rescale => (current, [.rescale rescale], .nothing)
  | .suspendMarker => (current, [.suspendMarker], .nothing)
  | .epoch time =>
      let result := operator.logic.onEpoch current.memory time current.state
      ({ state := result.2.1, memory := result.1 },
        emit result.2.2 ++ [.epoch time], .nothing)

section

variable [DecidableEq K] {operator : StatefulOp K V T VO S L}
  {current : OperatorState K S L} {message : Message K V T} {key : K}

omit [DecidableEq K] in
theorem mem_schedule (keeps : operator.logic.KeepsKeys)
    (member : key ∈ (operator.schedule current).1.state) :
    key ∈ current.state :=
  keeps.onSchedule _ _ _ member

/-- An operator has state of a key it had state of before, or whose record or
state it has just received. -/
theorem mem_receive (keeps : operator.logic.KeepsKeys)
    (member : key ∈ (operator.receive current message).1.state) :
    key ∈ current.state ∨ message.key? = some key := by
  cases message with
  | data dataMessage =>
      simp only [receive] at member
      split at member
      · simp only [IndexMap.mem_insert, IndexMap.mem_swapRemove] at member
        rcases member with ⟨before, _⟩ | rfl
        · exact .inl before
        · exact .inr rfl
      · simp only [IndexMap.mem_swapRemove] at member
        exact .inl member.1
  | acquire acquire =>
      simp only [receive, Acquire.takeState] at member
      cases found : acquire.collection.get? operator.operatorId with
      | none => exact .inl (by simpa [found] using member)
      | some bytes =>
          simp only [found, Option.map_some, IndexMap.mem_insert] at member
          rcases member with before | rfl
          · exact .inl before
          · exact .inr rfl
  | collect collected =>
      simp only [receive] at member
      split at member
      · exact .inl (IndexMap.mem_swapRemove.mp member).1
      · exact .inl member
  | epoch time => exact .inl (keeps.onEpoch _ _ _ _ member)
  | interrogate => exact .inl member
  | absBarrier => exact .inl member
  | rescale rescale => exact .inl member
  | suspendMarker => exact .inl member

theorem not_mem_receive_collect :
    key ∉ (operator.receive current (.collect key)).1.state := by
  intro member
  simp only [receive] at member
  split at member
  · exact (IndexMap.mem_swapRemove.mp member).2 rfl
  next found => exact (IndexMap.get?_eq_none.mp found) member

end

end StatefulOp

end Malstrom.Operators
