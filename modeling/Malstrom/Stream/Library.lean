import Malstrom.Operators.GenerateEpochs
import Malstrom.Stream.Operator

namespace Malstrom.Stream

open Data Keyed Operators

variable {K V T S E : Type}

/-! The operators of the library. -/

/-- The handlers of an operator; `E` is what its clients have received. -/
structure LogicWrapper (K V T S E : Type) where
  onSchedule : E → S → S × List (DataMessage K V T) × Option T
  onData : DataMessage K V T → S → S × List (DataMessage K V T)
  onEpoch : T → S → S × List (DataMessage K V T) × Option T
  onBarrier : S → Bytes
  onRescale : RescaleMessage → S → S
  onSuspend : S → S
  onCollect : K → S → S
  onAcquire : Acquire K → S → S × Acquire K

def sends (records : List (DataMessage K V T)) (epoch : Option T) :
    List (Message K V T) :=
  records.map .data ++ epoch.toList.map .epoch

theorem sends_uncounted (records : List (DataMessage K V T))
    (epoch : Option T) :
    ∀ message ∈ sends records epoch, message.isCounted = false := by
  intro message member
  simp only [sends, List.mem_append, List.mem_map] at member
  obtain ⟨record, -, rfl⟩ | ⟨time, -, rfl⟩ := member <;> rfl

/-- Call the handler of the message; everything but records and epochs is sent
on afterwards. -/
def LogicWrapper.intoLogic (wrapper : LogicWrapper K V T S E) :
    Logic K V T S E where
  onSchedule external state :=
    let scheduled := wrapper.onSchedule external state
    (scheduled.1, sends scheduled.2.1 scheduled.2.2)
  onMessage received state :=
    match received with
    | .data message =>
        let handled := wrapper.onData message state
        (handled.1, sends handled.2 none)
    | .epoch time =>
        let handled := wrapper.onEpoch time state
        (handled.1, sends handled.2.1 handled.2.2)
    | .absBarrier => (state, [])
    | .rescale message => (wrapper.onRescale message state, [])
    | .suspendMarker => (wrapper.onSuspend state, [])
    | .interrogate => (state, [.interrogate])
    | .collect key => (wrapper.onCollect key state, [.collect key])
    | .acquire moved =>
        let handled := wrapper.onAcquire moved state
        (handled.1, [.acquire handled.2])
  persist := some wrapper.onBarrier
  forwards := true
  scheduleUncounted _ _ := sends_uncounted _ _
  messageUncounted received state := by
    cases received with
    | data message => exact sends_uncounted _ _
    | epoch time => exact sends_uncounted _ _
    | absBarrier => simp
    | rescale message => simp
    | suspendMarker => simp
    | interrogate => simp [Message.isCounted]
    | collect key => simp [Message.isCounted]
    | acquire moved => simp [Message.isCounted]

namespace Library

/-- Messages which an operator without state of its own sends on as they
are. -/
def passOn : Message K V T → List (Message K V T)
  | .absBarrier | .rescale _ | .suspendMarker => []
  | message => [message]

theorem passOn_uncounted (received : Message K V T) :
    ∀ message ∈ passOn received, message.isCounted = false := by
  cases received <;> simp [passOn, Message.isCounted]

/-- Everything is sent on; where a record goes is up to the partitioner of the
output. -/
def split : Logic K V T S E where
  onSchedule _ state := (state, [])
  onMessage received state := (state, passOn received)
  persist := none
  forwards := true
  scheduleUncounted := by simp
  messageUncounted received _ := passOn_uncounted received

def statelessOp (onData : DataMessage K V T → S → S × List (DataMessage K V T))
    (onEpoch : T → S → S × List (DataMessage K V T)) : Logic K V T S E where
  onSchedule _ state := (state, [])
  onMessage received state :=
    match received with
    | .data message =>
        let handled := onData message state
        (handled.1, sends handled.2 none)
    | .epoch time =>
        let handled := onEpoch time state
        (handled.1, sends handled.2 (some time))
    | other => (state, passOn other)
  persist := none
  forwards := true
  scheduleUncounted := by simp
  messageUncounted received state := by
    cases received with
    | data message => exact sends_uncounted _ _
    | epoch time => exact sends_uncounted _ _
    | absBarrier | rescale | suspendMarker | interrogate | collect | acquire =>
        simp [passOn, Message.isCounted]

/-- Key messages do not cross the border of a key region. -/
def keyLocal (keyFunc : DataMessage K V T → K) : Logic K V T S E where
  onSchedule _ state := (state, [])
  onMessage received state :=
    match received with
    | .data message => (state, [.data { message with key := keyFunc message }])
    | .epoch time => (state, [.epoch time])
    | _ => (state, [])
  persist := none
  forwards := true
  scheduleUncounted := by simp
  messageUncounted received state := by
    cases received <;> simp [Message.isCounted]

/-- Only the last epoch of the old times is kept. -/
def assignTimestamps [DecidableEq T]
    (assigner : DataMessage K V T → S → S × T) (max maxOut : T) :
    Logic K V T S E where
  onSchedule _ state := (state, [])
  onMessage received state :=
    match received with
    | .data message =>
        let assigned := assigner message state
        (assigned.1, [.data { message with timestamp := assigned.2 }])
    | .epoch time => (state, if time = max then [.epoch maxOut] else [])
    | other => (state, passOn other)
  persist := none
  forwards := true
  scheduleUncounted := by simp
  messageUncounted received state := by
    cases received with
    | data message => simp [Message.isCounted]
    | epoch time => split <;> simp [Message.isCounted]
    | absBarrier | rescale | suspendMarker | interrogate | collect | acquire =>
        simp [passOn, Message.isCounted]

/-- The state is the last epoch sent; `onTime` and `late` wrap the value of a
record. -/
def generateEpochs [LT T] [DecidableLT T]
    (gen : DataMessage K V T → Option T → Option T) (onTime late : V → V)
    (encode : Option T → Bytes) : Logic K V T (Option T) E where
  onSchedule _ prevEpoch := (prevEpoch, [])
  onMessage received prevEpoch :=
    match received with
    | .data message =>
        let wrapped := match prevEpoch with
          | some prev => if prev < message.timestamp then onTime message.value
              else late message.value
          | none => onTime message.value
        let sent := .data { message with value := wrapped }
        match gen message prevEpoch, prevEpoch with
        | none, prev => (prev, [sent])
        | some epoch, none => (some epoch, [sent, .epoch epoch])
        | some epoch, some prev =>
            if prev < epoch then (some epoch, [sent, .epoch epoch])
            else (some prev, [sent])
    | .epoch time =>
        match prevEpoch with
        | none => (some time, [.epoch time])
        | some prev =>
            if prev < time then (some time, [.epoch time])
            else (some prev, [])
    | other => (prevEpoch, passOn other)
  persist := some encode
  forwards := true
  scheduleUncounted := by simp
  messageUncounted received prevEpoch := by
    cases received with
    | data message =>
        dsimp only
        split
        · simp [Message.isCounted]
        · simp [Message.isCounted]
        · split <;> simp [Message.isCounted]
    | epoch time =>
        dsimp only
        split
        · simp [Message.isCounted]
        · split <;> simp [Message.isCounted]
    | absBarrier | rescale | suspendMarker | interrogate | collect | acquire =>
        simp [passOn, Message.isCounted]

/-- The messages of a call are those of an operator whose generator remembers
nothing. -/
theorem generateEpochs_output [LT T] [DecidableLT T]
    (gen : DataMessage K V T → Option T → Option T) (onTime late : V → V)
    (codec : Snapshot.Codec T) (received : Message K V T)
    (prevEpoch : Option T) :
    let logic := generateEpochs (E := E) gen onTime late codec.serializeOption
    let generated := Operators.generateEpochs
      (fun memory record prev => (memory, gen record prev)) codec
      ⟨prevEpoch, ()⟩ received
    (logic.onMessage received prevEpoch).1 = generated.1.prevEpoch ∧
      (logic.onMessage received prevEpoch).2 ++ logic.forwarded received =
        generated.2.1.map (OnTimeLate.unwrap onTime late) ∧
      logic.persisted received prevEpoch = generated.2.2 := by
  cases received with
  | data record =>
      cases prevEpoch with
      | none =>
          cases isNew : gen record none <;>
            simp [generateEpochs, Operators.generateEpochs, issue, isNew,
              handleMaybeLateMsg, OnTimeLate.unwrap, Logic.forwarded,
              Logic.persisted, Message.isCounted, Message.isBarrier]
      | some prev =>
          cases isNew : gen record (some prev) with
          | none =>
              simp only [generateEpochs, Operators.generateEpochs, issue, isNew,
                handleMaybeLateMsg]
              split <;> simp [OnTimeLate.unwrap, Logic.forwarded,
                Logic.persisted, Message.isCounted, Message.isBarrier]
          | some epoch =>
              simp only [generateEpochs, Operators.generateEpochs, issue, isNew,
                handleMaybeLateMsg]
              split <;> split <;> simp [OnTimeLate.unwrap, Logic.forwarded,
                Logic.persisted, Message.isCounted, Message.isBarrier]
  | epoch time =>
      cases prevEpoch with
      | none =>
          simp [generateEpochs, Operators.generateEpochs, OnTimeLate.unwrap,
            Logic.forwarded, Logic.persisted, Message.isCounted,
            Message.isBarrier]
      | some prev =>
          by_cases later : prev < time <;>
            simp [generateEpochs, Operators.generateEpochs, later,
              OnTimeLate.unwrap, Logic.forwarded, Logic.persisted,
              Message.isCounted, Message.isBarrier]
  | absBarrier | rescale | suspendMarker | interrogate | collect | acquire =>
      simp [generateEpochs, Operators.generateEpochs, passOn,
        OnTimeLate.unwrap, Logic.forwarded, Logic.persisted,
        Message.isCounted, Message.isBarrier]

/-- The state is what was not sent yet of the parts; the messages which only
key regions know are never received. -/
def listParts (record : K → DataMessage K V T) : Logic K V T (List K) E where
  onSchedule _ parts := ([], parts.map fun part => .data (record part))
  onMessage _ parts := (parts, [])
  persist := none
  forwards := true
  scheduleUncounted _ parts := by simp [Message.isCounted]
  messageUncounted := by simp

def statelessSink (sink : DataMessage K V T → S → S) : Logic K V T S E where
  onSchedule _ state := (state, [])
  onMessage received state :=
    match received with
    | .data message => (sink message state, [])
    | _ => (state, [])
  persist := none
  forwards := false
  scheduleUncounted := by simp
  messageUncounted received state := by cases received <;> simp

section

variable {L : Type} [DecidableEq K]

def statefulOp (operator : StatefulOp K V T V S L)
    (encode : IndexMap K S → Bytes) : Logic K V T (OperatorState K S L) E where
  onSchedule _ current := operator.schedule current
  onMessage received current :=
    let handled := operator.receive current received
    (handled.1, handled.2.1.filter fun message => !message.isCounted)
  persist := some fun current => encode current.state
  forwards := true
  scheduleUncounted _ current := by
    simp [StatefulOp.schedule, StatefulOp.emit, Message.isCounted]
  messageUncounted received current := by
    intro message member
    simpa using (List.mem_filter.mp member).2

/-- The messages of a call are those the operator sends. -/
theorem statefulOp_output (operator : StatefulOp K V T V S L)
    (encode : IndexMap K S → Bytes) (current : OperatorState K S L)
    (received : Message K V T) :
    ((statefulOp (E := E) operator encode).onMessage received current).2 ++
        (statefulOp (E := E) operator encode).forwarded received =
      (operator.receive current received).2.1 := by
  cases received with
  | data message =>
      simp [statefulOp, StatefulOp.receive, Logic.forwarded, Message.isCounted,
        StatefulOp.emit, List.filter_eq_self]
  | epoch time =>
      simp [statefulOp, StatefulOp.receive, Logic.forwarded, Message.isCounted,
        StatefulOp.emit, List.filter_eq_self]
  | collect key =>
      simp only [statefulOp, StatefulOp.receive, Logic.forwarded]
      split <;> simp [Message.isCounted]
  | absBarrier | rescale | suspendMarker | interrogate | acquire =>
      simp [statefulOp, StatefulOp.receive, Logic.forwarded, Message.isCounted]

end

end Library

/-- The same logic on a part of a larger state. -/
def Logic.within {U : Type} (logic : Logic K V T S E) (get : U → S)
    (put : S → U) : Logic K V T U E where
  onSchedule external state :=
    let scheduled := logic.onSchedule external (get state)
    (put scheduled.1, scheduled.2)
  onMessage received state :=
    let handled := logic.onMessage received (get state)
    (put handled.1, handled.2)
  persist := logic.persist.map fun write state => write (get state)
  forwards := logic.forwards
  scheduleUncounted external state :=
    logic.scheduleUncounted external (get state)
  messageUncounted received state :=
    logic.messageUncounted received (get state)

end Malstrom.Stream
