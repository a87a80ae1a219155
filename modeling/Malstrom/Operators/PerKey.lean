import Malstrom.Data.Transducer
import Malstrom.Operators.StatefulOp

namespace Malstrom.Operators

open Data

variable {K V T VO S L : Type}

/-! What a stateful operator is for: every key has a program of its own, which
the records of the other keys do not touch. -/

inductive Request (K V T : Type) where
  | record (message : DataMessage K V T)
  | epoch (time : T)
  deriving DecidableEq

structure KeyLogic (K V T VO S : Type) where
  onData : DataMessage K V T → S → Option S × List (DataMessage K VO T)
  onEpoch : T → S → Option S

def KeyLogic.transducer (own : KeyLogic K V T VO S) (default : S) :
    Transducer (Option S) (Request K V T) (DataMessage K VO T) where
  step state request :=
    match request with
    | .record message => own.onData message (state.getD default)
    | .epoch time => (state.bind (own.onEpoch time), [])

/-- The logic does the same for every key, and nothing without a message. -/
structure StatefulLogic.Keywise [DecidableEq K]
    (logic : StatefulLogic K V T VO S L) (own : KeyLogic K V T VO S) :
    Prop where
  onData : ∀ memory message state,
    (logic.onData memory message state).2 = own.onData message state
  records : ∀ message state, ∀ record ∈ (own.onData message state).2,
    record.key = message.key
  onEpoch : ∀ memory time state,
    (∀ key, (logic.onEpoch memory time state).2.1.get? key =
      (state.get? key).bind (own.onEpoch time)) ∧
    (logic.onEpoch memory time state).2.2 = []
  onSchedule : ∀ memory state,
    logic.onSchedule memory state = (memory, state, [])

def mapperOp (mapper : L → K → V → S → L × VO × Option S) :
    StatefulLogic K V T VO S L where
  onData memory message keyState :=
    let mapped := mapper memory message.key message.value keyState
    (mapped.1, mapped.2.2, [⟨message.key, mapped.2.1, message.timestamp⟩])
  onEpoch memory _ state := (memory, state, [])
  onSchedule memory state := (memory, state, [])

/-- A map whose entries live for a time; it comes from another crate. -/
structure ExpireMap (M T : Type) where
  expire : M → T → M
  isEmpty : M → Bool

/-- The logic of `ttl_map`: an epoch removes what has lived long enough. -/
def ttlOp (expireMap : ExpireMap S T)
    (function : L → K → V → T → S → L × VO × Option S) :
    StatefulLogic K V T VO S L where
  onData memory message keyState :=
    let mapped := function memory message.key message.value message.timestamp
      keyState
    (mapped.1, mapped.2.2, [⟨message.key, mapped.2.1, message.timestamp⟩])
  onEpoch memory epoch state :=
    (memory, state.retain fun value =>
      let rest := expireMap.expire value epoch
      if !expireMap.isEmpty rest then some rest else none, [])
  onSchedule memory state := (memory, state, [])

section

variable [DecidableEq K]

theorem StatefulLogic.Keywise.keepsKeys {logic : StatefulLogic K V T VO S L}
    {own : KeyLogic K V T VO S} (keywise : logic.Keywise own) :
    logic.KeepsKeys where
  onEpoch memory time state key held := by
    have result := (keywise.onEpoch memory time state).1 key
    cases before : state.get? key with
    | some _ => exact IndexMap.mem_of_get?_eq_some before
    | none =>
        rw [before] at result
        exact absurd held (IndexMap.get?_eq_none.mp result)
  onSchedule memory state key held := by
    rw [keywise.onSchedule memory state] at held
    exact held

theorem mapperOp_keywise {mapper : L → K → V → S → L × VO × Option S}
    {own : K → V → S → VO × Option S}
    (forgets : ∀ memory key value state,
      (mapper memory key value state).2 = own key value state) :
    (mapperOp mapper : StatefulLogic K V T VO S L).Keywise
      { onData := fun message state =>
          ((own message.key message.value state).2,
            [⟨message.key, (own message.key message.value state).1,
              message.timestamp⟩])
        onEpoch := fun _ => some } where
  onData memory message state := by simp only [mapperOp, forgets]
  records message state record member := by
    rw [List.mem_singleton.mp member]
  onEpoch memory time state := ⟨fun key => by simp [mapperOp], rfl⟩
  onSchedule _ _ := rfl

theorem ttlOp_keywise {expireMap : ExpireMap S T}
    {function : L → K → V → T → S → L × VO × Option S}
    {own : K → V → T → S → VO × Option S}
    (forgets : ∀ memory key value time state,
      (function memory key value time state).2 = own key value time state) :
    (ttlOp expireMap function).Keywise
      { onData := fun message state =>
          ((own message.key message.value message.timestamp state).2,
            [⟨message.key,
              (own message.key message.value message.timestamp state).1,
              message.timestamp⟩])
        onEpoch := fun epoch value =>
          let rest := expireMap.expire value epoch
          if !expireMap.isEmpty rest then some rest else none } where
  onData memory message state := by simp only [ttlOp, forgets]
  records message state record member := by
    rw [List.mem_singleton.mp member]
  onEpoch memory time state := ⟨fun key => IndexMap.get?_retain _ _ _, rfl⟩
  onSchedule _ _ := rfl

namespace StatefulOp

def transducer (operator : StatefulOp K V T VO S L) :
    Transducer (OperatorState K S L) (Message K V T) (Message K VO T) where
  step current message :=
    let scheduled := operator.schedule current
    let received := operator.receive scheduled.1 message
    (received.1, scheduled.2 ++ received.2.1)

def asked (key : K) : Message K V T → Option (Request K V T)
  | .data message => if message.key = key then some (.record message) else none
  | .epoch time => some (.epoch time)
  | _ => none

def answered (key : K) (message : Message K VO T) :
    Option (DataMessage K VO T) :=
  message.data?.filter fun record => decide (record.key = key)

/-- The state of the key neither leaves nor comes. -/
def Stays (key : K) (message : Message K V T) : Prop :=
  message ≠ .collect key ∧ ∀ moved, message = .acquire moved → moved.key ≠ key

variable {operator : StatefulOp K V T VO S L} {own : KeyLogic K V T VO S}
  {current : OperatorState K S L} {key : K}

theorem answered_emit (records : List (DataMessage K VO T)) :
    (emit records).filterMap (answered key) =
      records.filter fun record => decide (record.key = key) := by
  induction records with
  | nil => rfl
  | cons record rest ih =>
      rw [emit, List.map_cons, ← emit, List.filterMap_cons, ih,
        List.filter_cons, answered, Message.data?, Option.filter_some]
      split <;> split <;> simp_all

omit [DecidableEq K] in
theorem Stays.takeState {moved : Acquire K}
    (stays : Stays key (.acquire moved : Message K V T))
    {operatorId : OperatorId} {taken : K} {bytes : Bytes}
    (found : (moved.takeState operatorId).1 = some (taken, bytes)) :
    taken ≠ key := by
  obtain ⟨value, -, same⟩ := Option.map_eq_some_iff.mp found
  rw [← (Prod.mk.inj same).1]
  exact stays.2 moved rfl

theorem schedule_keywise (keywise : operator.logic.Keywise own)
    (current : OperatorState K S L) :
    operator.schedule current = (current, ([] : List (Message K VO T))) := by
  simp only [schedule, keywise.onSchedule]
  rfl

theorem receive_data (current : OperatorState K S L) (key : K)
    (keywise : operator.logic.Keywise own) (message : DataMessage K V T) :
    (operator.receive current (.data message)).1.state.get? key =
        (if message.key = key then
          (own.onData message ((current.state.get? key).getD
            operator.default)).1
        else current.state.get? key) ∧
      (operator.receive current (.data message)).2.1.filterMap (answered key) =
        if message.key = key then
          (own.onData message ((current.state.get? key).getD
            operator.default)).2
        else [] := by
  have result := keywise.onData current.memory message
    ((current.state.get? message.key).getD operator.default)
  have records := keywise.records message
    ((current.state.get? message.key).getD operator.default)
  simp only [receive, result, answered_emit]
  by_cases same : message.key = key
  · subst same
    simp only [if_true]
    constructor
    · cases (own.onData message ((current.state.get? message.key).getD
          operator.default)).1 with
      | none => rw [IndexMap.get?_swapRemove, if_pos rfl]
      | some state => rw [IndexMap.get?_insert_self]
    · rw [List.filter_eq_self]
      intro record member
      exact decide_eq_true (records record member)
  · have other : ¬ key = message.key := fun equal => same equal.symm
    simp only [same, if_false]
    constructor
    · cases (own.onData message ((current.state.get? message.key).getD
          operator.default)).1 with
      | none => rw [IndexMap.get?_swapRemove, if_neg other]
      | some state =>
          rw [IndexMap.get?_insert_of_ne _ _ other, IndexMap.get?_swapRemove,
            if_neg other]
    · rw [List.filter_eq_nil_iff]
      intro record member
      simpa [records record member] using same

theorem projects (keywise : operator.logic.Keywise own) (key : K) :
    operator.transducer.Projects (own.transducer operator.default)
      (fun current shadow => current.state.get? key = shadow) (asked key)
      (answered key) (Stays key) := by
  constructor
  case heard =>
    rintro current _ message request stays rfl isAsked
    simp only [transducer, schedule_keywise keywise, List.nil_append]
    cases message with
    | data record =>
        obtain ⟨state, records⟩ :=
          receive_data current key keywise record
        simp only [asked, Option.ite_none_right_eq_some, Option.some.injEq]
          at isAsked
        obtain ⟨own, rfl⟩ := isAsked
        rw [if_pos own] at state records
        exact ⟨state, records⟩
    | epoch time =>
        obtain rfl := Option.some.inj isAsked
        obtain ⟨state, nothing⟩ :=
          keywise.onEpoch current.memory time current.state
        refine ⟨state key, ?_⟩
        simp [receive, nothing, emit, answered, Message.data?,
          KeyLogic.transducer]
    | absBarrier | rescale | suspendMarker | interrogate | collect | acquire =>
        cases isAsked
  case unheard =>
    rintro current _ message stays rfl unasked
    simp only [transducer, schedule_keywise keywise, List.nil_append]
    cases message with
    | data record =>
        obtain ⟨state, records⟩ :=
          receive_data current key keywise record
        have other : ¬ record.key = key := by simpa [asked] using unasked
        rw [if_neg other] at state records
        exact ⟨state, records⟩
    | epoch time => cases unasked
    | absBarrier | rescale | suspendMarker | interrogate =>
        exact ⟨rfl, rfl⟩
    | collect collected =>
        have other : ¬ key = collected := fun equal => stays.1 (equal ▸ rfl)
        simp only [receive]
        split
        · exact ⟨by rw [IndexMap.get?_swapRemove, if_neg other], rfl⟩
        · exact ⟨rfl, rfl⟩
    | acquire moved =>
        refine ⟨?_, rfl⟩
        simp only [receive]
        cases found : (moved.takeState operator.operatorId).1 with
        | none => rfl
        | some taken =>
            have other := stays.takeState found
            exact IndexMap.get?_insert_of_ne _ _ (Ne.symm other)

/-- Whatever the other keys get, a key's state and its records are those of its
own program. -/
theorem keys_independent (keywise : operator.logic.Keywise own) (key : K)
    (current : OperatorState K S L) {messages : List (Message K V T)}
    (stays : ∀ message ∈ messages, Stays key message) :
    (operator.transducer.after current messages).state.get? key =
        (own.transducer operator.default).after (current.state.get? key)
          (messages.filterMap (asked key)) ∧
      (operator.transducer.outputs current messages).filterMap (answered key) =
        (own.transducer operator.default).outputs (current.state.get? key)
          (messages.filterMap (asked key)) :=
  (projects keywise key).run rfl stays

end StatefulOp

end

end Malstrom.Operators
