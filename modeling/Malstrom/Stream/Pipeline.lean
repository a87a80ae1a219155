import Malstrom.Operators.PerKey
import Malstrom.Stream.Meaning
import Malstrom.Stream.Region

namespace Malstrom.Stream

open Data Channels Keyed Operators

variable {K V T S E : Type}

/-! Streams as their users write them: each call on a stream adds an operator,
and a row of operators does with the records of a stream what the calls say. -/

namespace Library

/-! Closures keep what they have captured in the state of their operator. -/

/-- The default of `on_epoch`. -/
def ignoreEpoch (_ : T) (memory : S) : S × List (DataMessage K V T) :=
  (memory, [])

def map (mapper : V → S → S × V) : Logic K V T S E :=
  statelessOp (fun item memory =>
    let mapped := mapper item.value memory
    (mapped.1, [{ item with value := mapped.2 }])) ignoreEpoch

def filter (predicate : V → S → S × Bool) : Logic K V T S E :=
  statelessOp (fun item memory =>
    let retained := predicate item.value memory
    (retained.1, if retained.2 then [item] else [])) ignoreEpoch

def filterMap (mapper : V → S → S × Option V) : Logic K V T S E :=
  statelessOp (fun item memory =>
    let mapped := mapper item.value memory
    (mapped.1, mapped.2.toList.map fun value => { item with value := value }))
    ignoreEpoch

def flatten (intoIter : V → List V) : Logic K V T S E :=
  statelessOp (fun item memory =>
    (memory, (intoIter item.value).map fun value => { item with value := value }))
    ignoreEpoch

theorem nothing_uncounted (_ : E) (memory : S) :
    ∀ message ∈ (memory, ([] : List (Message K V T))).2,
      message.isCounted = false := by
  simp

def inspect (inspector : DataMessage K V T → S → S) : Logic K V T S E where
  onSchedule _ memory := (memory, [])
  onMessage received memory :=
    match received with
    | .data message => (inspector message memory, [.data message])
    | other => (memory, passOn other)
  persist := none
  forwards := true
  scheduleUncounted := nothing_uncounted
  messageUncounted received memory := by
    cases received with
    | data message => simp [Message.isCounted]
    | epoch | absBarrier | rescale | suspendMarker | interrogate | collect
    | acquire => simp [passOn, Message.isCounted]

end Library

/-! ### What an operator does with records -/

/-- What a function on records makes of a list of them. -/
def recordTransducer
    (onRecord : DataMessage K V T → S → S × List (DataMessage K V T)) :
    Transducer S (DataMessage K V T) (DataMessage K V T) where
  step state record := onRecord record state

/-- The logic is this function on records as long as only such messages come;
all others leave its state alone. -/
structure Logic.Recordwise (logic : Logic K V T S E)
    (allowed : Message K V T → Prop)
    (onRecord : DataMessage K V T → S → S × List (DataMessage K V T)) :
    Prop where
  inert : logic.Inert
  record : ∀ record state, logic.onMessage (.data record) state =
    ((onRecord record state).1, (onRecord record state).2.map .data)
  other : ∀ message state, message.data? = none → allowed message →
    (logic.onMessage message state).1 = state ∧
      ∀ answer ∈ (logic.onMessage message state).2,
        answer.data? = none ∧ allowed answer

section

variable {allowed : Message K V T → Prop}

namespace Library

theorem passOn_other {message : Message K V T}
    (noRecord : message.data? = none) (isAllowed : allowed message) :
    ∀ answer ∈ passOn message, answer.data? = none ∧ allowed answer := by
  intro answer member
  rw [mem_passOn member]
  exact ⟨noRecord, isAllowed⟩

theorem statelessOp_recordwise
    {onData : DataMessage K V T → S → S × List (DataMessage K V T)} :
    (statelessOp (E := E) onData ignoreEpoch).Recordwise allowed onData where
  inert _ _ := rfl
  record record state := by simp [statelessOp, sends]
  other message state noRecord isAllowed := by
    cases message with
    | data record => cases noRecord
    | epoch time =>
        refine ⟨rfl, fun answer member => ?_⟩
        obtain rfl : answer = .epoch time := by
          simpa [statelessOp, ignoreEpoch, sends] using member
        exact ⟨rfl, isAllowed⟩
    | absBarrier | rescale | suspendMarker | interrogate | collect | acquire =>
        exact ⟨rfl, passOn_other noRecord isAllowed⟩

theorem inspect_recordwise (inspector : DataMessage K V T → S → S) :
    (inspect (E := E) inspector).Recordwise allowed
      fun record memory => (inspector record memory, [record]) where
  inert _ _ := rfl
  record _ _ := rfl
  other message memory noRecord isAllowed := by
    cases message with
    | data record => cases noRecord
    | epoch | absBarrier | rescale | suspendMarker | interrogate | collect
    | acquire => exact ⟨rfl, passOn_other noRecord isAllowed⟩

theorem split_recordwise :
    (split : Logic K V T S E).Recordwise allowed
      fun record state => (state, [record]) where
  inert _ _ := rfl
  record _ _ := rfl
  other _ _ noRecord isAllowed := ⟨rfl, passOn_other noRecord isAllowed⟩

theorem keyLocal_recordwise (keyFunc : DataMessage K V T → K) :
    (keyLocal keyFunc : Logic K V T S E).Recordwise allowed
      fun record state => (state, [{ record with key := keyFunc record }]) where
  inert _ _ := rfl
  record _ _ := rfl
  other message state noRecord isAllowed := by
    cases message with
    | data record => cases noRecord
    | epoch time =>
        refine ⟨rfl, fun answer member => ?_⟩
        rw [List.mem_singleton.mp member]
        exact ⟨rfl, isAllowed⟩
    | absBarrier | rescale | suspendMarker | interrogate | collect | acquire =>
        exact ⟨rfl, by simp [keyLocal]⟩

theorem assignTimestamps_recordwise [DecidableEq T]
    (assigner : DataMessage K V T → S → S × T) (max maxOut : T)
    (last : allowed (.epoch maxOut)) :
    (assignTimestamps (E := E) assigner max maxOut).Recordwise allowed
      fun record state =>
        ((assigner record state).1,
          [{ record with timestamp := (assigner record state).2 }]) where
  inert _ _ := rfl
  record _ _ := rfl
  other message state noRecord isAllowed := by
    cases message with
    | data record => cases noRecord
    | epoch time =>
        refine ⟨rfl, fun answer member => ?_⟩
        obtain ⟨-, rfl⟩ : time = max ∧ answer = .epoch maxOut := by
          simpa [assignTimestamps] using member
        exact ⟨rfl, last⟩
    | absBarrier | rescale | suspendMarker | interrogate | collect | acquire =>
        exact ⟨rfl, passOn_other noRecord isAllowed⟩

theorem statelessSink_recordwise (sink : DataMessage K V T → S → S) :
    (statelessSink (E := E) sink).Recordwise allowed
      fun record state => (sink record state, []) where
  inert _ _ := rfl
  record _ _ := rfl
  other message state noRecord isAllowed := by
    cases message with
    | data record => cases noRecord
    | epoch | absBarrier | rescale | suspendMarker | interrogate | collect
    | acquire => exact ⟨rfl, by simp [statelessSink]⟩

end Library

namespace Logic.Recordwise

variable {logic : Logic K V T S E}
  {onRecord : DataMessage K V T → S → S × List (DataMessage K V T)}

theorem within {U : Type} (recordwise : logic.Recordwise allowed onRecord)
    {get : U → S} {put : S → U} (same : ∀ state, put (get state) = state) :
    (logic.within get put).Recordwise allowed fun record state =>
      (put (onRecord record (get state)).1, (onRecord record (get state)).2)
      where
  inert external state := by
    simp only [Logic.within, recordwise.inert external (get state), same state]
  record record state := by
    simp only [Logic.within, recordwise.record record (get state)]
  other message state noRecord isAllowed := by
    obtain ⟨kept, answers⟩ :=
      recordwise.other message (get state) noRecord isAllowed
    exact ⟨by simp only [Logic.within, kept, same state], answers⟩

/-- Seen through the records the logic is the function on records. -/
theorem projects (recordwise : logic.Recordwise allowed onRecord) :
    logic.transducer.Projects (recordTransducer onRecord) Eq Message.data?
      Message.data? allowed where
  heard state shadow message record isAllowed same isRecord := by
    obtain rfl := Message.data?_eq_some.mp isRecord
    subst same
    have uncounted : logic.forwarded (.data record) = [] := by
      simp [Logic.forwarded, Message.isCounted]
    simp only [Logic.transducer, recordwise.record, uncounted, List.append_nil,
      recordTransducer]
    refine ⟨trivial, ?_⟩
    rw [List.filterMap_map]
    exact List.filterMap_some
  unheard state shadow message isAllowed same noRecord := by
    subst same
    obtain ⟨kept, answers⟩ :=
      recordwise.other message state noRecord isAllowed
    refine ⟨kept, ?_⟩
    simp only [Logic.transducer, List.filterMap_append,
      List.append_eq_nil_iff, List.filterMap_eq_nil_iff]
    refine ⟨fun answer member => (answers answer member).1, ?_⟩
    intro answer member
    simp only [Logic.forwarded] at member
    split at member
    next => rwa [List.mem_singleton.mp member]
    next => cases member

/-- Only such messages are sent on. -/
theorem allowed_outputs (recordwise : logic.Recordwise allowed onRecord)
    (records : ∀ record, allowed (.data record)) (state : S)
    {messages : List (Message K V T)}
    (permitted : ∀ message ∈ messages, allowed message) :
    ∀ answer ∈ logic.transducer.outputs state messages, allowed answer := by
  induction messages generalizing state with
  | nil => simp
  | cons message rest ih =>
      intro answer member
      rw [Transducer.outputs_cons, List.mem_append] at member
      rcases member with first | later
      · have isAllowed := permitted message List.mem_cons_self
        rcases List.mem_append.mp first with handled | forwarded
        · cases message with
          | data record =>
              rw [recordwise.record] at handled
              obtain ⟨sent, -, rfl⟩ := List.mem_map.mp handled
              exact records sent
          | epoch | absBarrier | rescale | suspendMarker | interrogate
          | collect | acquire =>
              exact ((recordwise.other _ state rfl isAllowed).2 answer
                handled).2
        · simp only [Logic.forwarded] at forwarded
          split at forwarded
          next => rwa [List.mem_singleton.mp forwarded]
          next => cases forwarded
      · exact ih _ (fun other member =>
          permitted other (List.mem_cons_of_mem _ member)) answer later

end Logic.Recordwise

end

/-! ### Rows of operators -/

/-- One call on a stream: what reaches its operator and what that does with a
record. -/
structure Stage (K V T S : Type) where
  initial : S
  onRecord : DataMessage K V T → S → S × List (DataMessage K V T)
  /-- The records the output before it lets through. -/
  carries : DataMessage K V T → Bool := fun _ => true

namespace Stage

def after (stage : Stage K V T S) (records : List (DataMessage K V T)) : S :=
  (recordTransducer stage.onRecord).after stage.initial
    (records.filter stage.carries)

def apply (stage : Stage K V T S) (records : List (DataMessage K V T)) :
    List (DataMessage K V T) :=
  (recordTransducer stage.onRecord).outputs stage.initial
    (records.filter stage.carries)

def applyAll (stages : List (Stage K V T S))
    (records : List (DataMessage K V T)) : List (DataMessage K V T) :=
  stages.foldl (fun records stage => stage.apply records) records

theorem apply_mono (stage : Stage K V T S)
    {first second : List (DataMessage K V T)} (grows : first <+: second) :
    stage.apply first <+: stage.apply second :=
  Transducer.outputs_mono _ _ (grows.filter _)

end Stage

/-- These operators stand behind each other, the first one behind this source,
and only such messages make sense to them. -/
inductive Graph.Row (graph : Graph K V T S E) (allowed : Message K V T → Prop)
    (first : Option Nat) : List (Nat × Stage K V T S) → Option Nat → Prop
  | nil : Row graph allowed first [] first
  | add {row : List (Nat × Stage K V T S)} {source : Option Nat}
      {stage : Stage K V T S} {operator : Nat} {logic : Logic K V T S E}
      (before : Row graph allowed first row source)
      (inGraph : operator < graph.size)
      (kind : graph.kind operator = .logic logic stage.initial)
      (recordwise : logic.Recordwise allowed stage.onRecord)
      (upstream : graph.upstream operator = [source])
      (carries : graph.carries operator 0 = stage.carries) :
      Row graph allowed first (row ++ [(operator, stage)]) (some operator)

section

variable {graph : Graph K V T S E} {allowed : Message K V T → Prop}

theorem Graph.Row.last {first last : Option Nat}
    {row : List (Nat × Stage K V T S)} {operator : Nat} {stage : Stage K V T S}
    (isRow : graph.Row allowed first (row ++ [(operator, stage)]) last) :
    ∃ source logic, graph.Row allowed first row source ∧
      operator < graph.size ∧
      graph.kind operator = .logic logic stage.initial ∧
      logic.Recordwise allowed stage.onRecord ∧
      graph.upstream operator = [source] ∧
      graph.carries operator 0 = stage.carries := by
  generalize entries : row ++ [(operator, stage)] = all at isRow
  cases isRow with
  | nil => simp at entries
  | @add before source stage operator logic isRow inGraph kind recordwise
      upstream carries =>
      obtain ⟨rfl, same⟩ := List.append_inj' entries rfl
      cases same
      exact ⟨source, logic, isRow, inGraph, kind, recordwise, upstream, carries⟩

theorem records_carried (messages : List (Message K V T))
    (operator channel : Nat) :
    (messages.filter (graph.carried operator channel)).filterMap
        Message.data? =
      (messages.filterMap Message.data?).filter
        (graph.carries operator channel) := by
  induction messages with
  | nil => rfl
  | cons message rest ih =>
      cases message with
      | data record =>
          by_cases passes : graph.carries operator channel record = true
          · simp [Graph.carried, passes, Message.data?, ih]
          · simp [Graph.carried, passes, Message.data?, ih]
      | epoch | absBarrier | rescale | suspendMarker | interrogate | collect
      | acquire => exact ih

namespace Account

variable {account : Account K V T S E}

def records (account : Account K V T S E) (source : Option Nat) :
    List (DataMessage K V T) :=
  (account.sent source).filterMap Message.data?

theorem Played.stage (played : account.Played graph)
    {operator : Nat} {stage : Stage K V T S} {logic : Logic K V T S E}
    {source : Option Nat} (inGraph : operator < graph.size)
    (kind : graph.kind operator = .logic logic stage.initial)
    (recordwise : logic.Recordwise allowed stage.onRecord)
    (upstream : graph.upstream operator = [source])
    (carries : graph.carries operator 0 = stage.carries)
    (permitted : ∀ message ∈ account.sent source, allowed message) :
    account.records (some operator) <+: stage.apply (account.records source) ∧
      ((account.operators operator).input.queue 0 = [] →
        account.records (some operator) =
            stage.apply (account.records source) ∧
          (account.operators operator).body =
            .logic logic (stage.after (account.records source))) := by
  obtain ⟨body, sent⟩ := played.replays operator inGraph logic stage.initial
    kind recordwise.inert
  have fed := played.fed operator inGraph source upstream
  have taken : ∀ message ∈ account.taken operator, allowed message := by
    intro message member
    apply permitted
    have inside : message ∈
        (account.sent source).filter (graph.carried operator 0) :=
      fed ▸ List.mem_append_left _ member
    exact List.mem_of_mem_filter inside
  obtain ⟨state, outputs⟩ := recordwise.projects.run (rfl) taken
  have received : (account.records source).filter stage.carries =
      (account.taken operator).filterMap Message.data? ++
        ((account.operators operator).input.queue 0).filterMap
          Message.data? := by
    rw [records, ← carries, ← records_carried, ← fed, List.filterMap_append]
  have isSent : account.records (some operator) =
      (recordTransducer stage.onRecord).outputs stage.initial
        ((account.taken operator).filterMap Message.data?) := by
    rw [records, sent, outputs]
  constructor
  · rw [isSent, Stage.apply, received]
    exact Transducer.outputs_mono _ _ (List.prefix_append _ _)
  · intro empty
    rw [empty, List.filterMap_nil, List.append_nil] at received
    rw [isSent, Stage.apply, Stage.after, received, body, state]
    exact ⟨rfl, rfl⟩

theorem Played.permitted (played : account.Played graph)
    (records : ∀ record, allowed (.data record)) {first last : Option Nat}
    {row : List (Nat × Stage K V T S)} (isRow : graph.Row allowed first row last)
    (permitted : ∀ message ∈ account.sent first, allowed message) :
    ∀ message ∈ account.sent last, allowed message := by
  induction isRow with
  | nil => exact permitted
  | @add row source stage operator logic before inGraph kind recordwise
      upstream carries ih =>
      rw [(played.replays operator inGraph logic stage.initial kind
        recordwise.inert).2]
      apply recordwise.allowed_outputs records
      intro message member
      have fed := played.fed operator inGraph source upstream
      have inside : message ∈
          (account.sent source).filter (graph.carried operator 0) :=
        fed ▸ List.mem_append_left _ member
      exact ih message (List.mem_of_mem_filter inside)

theorem Played.row (played : account.Played graph)
    (records : ∀ record, allowed (.data record)) {first last : Option Nat}
    {row : List (Nat × Stage K V T S)} (isRow : graph.Row allowed first row last)
    (permitted : ∀ message ∈ account.sent first, allowed message) :
    account.records last <+:
        Stage.applyAll (row.map Prod.snd) (account.records first) ∧
      ((∀ entry ∈ row,
          (account.operators entry.1).input.queue 0 = []) →
        account.records last =
          Stage.applyAll (row.map Prod.snd) (account.records first)) := by
  induction isRow with
  | nil => exact ⟨List.prefix_rfl, fun _ => rfl⟩
  | @add row source stage operator logic before inGraph kind recordwise
      upstream carries ih =>
      obtain ⟨grows, reached⟩ := ih
      obtain ⟨part, whole⟩ := played.stage inGraph kind recordwise upstream
        carries (played.permitted records before permitted)
      simp only [List.map_append, List.map_cons, List.map_nil, Stage.applyAll,
        List.foldl_append, List.foldl_cons, List.foldl_nil]
      refine ⟨part.trans (stage.apply_mono grows), fun drained => ?_⟩
      rw [(whole (drained (operator, stage) (by simp))).1, reached]
      · rfl
      · exact fun entry member =>
          drained entry (List.mem_append_left _ member)

end Account

variable [DecidableEq K] [MaybeTime T] [LT T] [DecidableLT T]

/-- A row of operators does with the records of its source what the calls on
the stream say, one after the other: in every state some part of it, and all
of it when no message is left between them. The last operator then has the
state to which all records before it lead. -/
theorem pipeline_meaning {context : BuildContext} {start : Worker K V T S E}
    {account : Account K V T S E}
    (built : graph.execute context = .ok start)
    (run : Reaches (Account.act graph context.workerId)
      (fun account event => account.allowed graph context.workerId event)
      { toWorker := start } account)
    (records : ∀ record, allowed (.data record)) {first : Option Nat}
    {row : List (Nat × Stage K V T S)} {operator : Nat} {stage : Stage K V T S}
    (isRow : graph.Row allowed first (row ++ [(operator, stage)])
      (some operator))
    (permitted : ∀ message ∈ account.sent first, allowed message) :
    account.records (some operator) <+:
        Stage.applyAll (row.map Prod.snd ++ [stage]) (account.records first) ∧
      ((∀ entry ∈ row ++ [(operator, stage)],
          (account.operators entry.1).input.queue 0 = []) →
        account.records (some operator) =
            Stage.applyAll (row.map Prod.snd ++ [stage])
              (account.records first) ∧
          ∃ logic, graph.kind operator = .logic logic stage.initial ∧
            (account.operators operator).body = .logic logic (stage.after
              (Stage.applyAll (row.map Prod.snd) (account.records first)))) := by
  have played := Account.Played.reaches built run
  obtain ⟨part, whole⟩ := played.row records isRow permitted
  simp only [List.map_append, List.map_cons, List.map_nil] at part whole
  refine ⟨part, fun drained => ⟨whole drained, ?_⟩⟩
  obtain ⟨source, logic, before, inGraph, kind, recordwise, upstream,
    carries⟩ := isRow.last
  obtain ⟨-, reached⟩ := played.stage inGraph kind recordwise upstream carries
    (played.permitted records before permitted)
  have last := (played.row records before permitted).2 fun entry member =>
    drained entry (List.mem_append_left _ member)
  refine ⟨logic, kind, ?_⟩
  rw [(reached (drained (operator, stage) (by simp))).2, last]

end

/-! ### What the calls say -/

/-- A call with a closure which remembers nothing. -/
inductive Transform (K V T : Type) where
  | map (mapper : V → V)
  | filter (predicate : V → Bool)
  | filterMap (mapper : V → Option V)
  | flatten (intoIter : V → List V)
  | keyLocal (keyFunc : DataMessage K V T → K)

namespace Transform

def logic : Transform K V T → Logic K V T S E
  | .map mapper => Library.map fun value memory => (memory, mapper value)
  | .filter predicate =>
      Library.filter fun value memory => (memory, predicate value)
  | .filterMap mapper =>
      Library.filterMap fun value memory => (memory, mapper value)
  | .flatten intoIter => Library.flatten intoIter
  | .keyLocal keyFunc => Library.keyLocal keyFunc

def onRecord (record : DataMessage K V T) :
    Transform K V T → List (DataMessage K V T)
  | .map mapper => [{ record with value := mapper record.value }]
  | .filter predicate => if predicate record.value then [record] else []
  | .filterMap mapper =>
      (mapper record.value).toList.map fun value => { record with value := value }
  | .flatten intoIter =>
      (intoIter record.value).map fun value => { record with value := value }
  | .keyLocal keyFunc => [{ record with key := keyFunc record }]

def stage (transform : Transform K V T) (memory : S) : Stage K V T S where
  initial := memory
  onRecord record state := (state, transform.onRecord record)

def denote (records : List (DataMessage K V T)) :
    Transform K V T → List (DataMessage K V T)
  | .map mapper =>
      records.map fun record => { record with value := mapper record.value }
  | .filter predicate => records.filter fun record => predicate record.value
  | .filterMap mapper => records.filterMap fun record =>
      (mapper record.value).map fun value => { record with value := value }
  | .flatten intoIter => records.flatMap fun record =>
      (intoIter record.value).map fun value => { record with value := value }
  | .keyLocal keyFunc =>
      records.map fun record => { record with key := keyFunc record }

theorem recordwise (transform : Transform K V T)
    {allowed : Message K V T → Prop} (memory : S) :
    (transform.logic : Logic K V T S E).Recordwise allowed
      (transform.stage memory).onRecord := by
  cases transform with
  | map | filter | filterMap | flatten =>
      exact Library.statelessOp_recordwise
  | keyLocal keyFunc => exact Library.keyLocal_recordwise keyFunc

theorem outputs_stage (transform : Transform K V T) (memory state : S)
    (records : List (DataMessage K V T)) :
    (recordTransducer (transform.stage memory).onRecord).outputs state records =
      records.flatMap fun record => transform.onRecord record := by
  induction records with
  | nil => rfl
  | cons record rest ih =>
      rw [Transducer.outputs_cons, List.flatMap_cons, ← ih]
      rfl

theorem flatMap_onRecord (transform : Transform K V T)
    (records : List (DataMessage K V T)) :
    (records.flatMap fun record => transform.onRecord record) =
      transform.denote records := by
  induction records with
  | nil => cases transform <;> rfl
  | cons record rest ih =>
      rw [List.flatMap_cons, ih]
      cases transform with
      | map | flatten | keyLocal => rfl
      | filter predicate =>
          cases retained : predicate record.value <;>
            simp [onRecord, denote, retained]
      | filterMap mapper =>
          cases mapped : mapper record.value <;>
            simp [onRecord, denote, mapped]

/-- The operators of a row of calls do what the calls say. -/
theorem applyAll_stages (program : List (Transform K V T)) (memory : S)
    (records : List (DataMessage K V T)) :
    Stage.applyAll (program.map fun transform => transform.stage memory)
        records =
      program.foldl (fun records transform => transform.denote records)
        records := by
  induction program generalizing records with
  | nil => rfl
  | cons transform rest ih =>
      have all : records.filter (transform.stage memory).carries = records :=
        List.filter_eq_self.mpr fun _ _ => rfl
      have first : (transform.stage memory).apply records =
          transform.denote records := by
        rw [Stage.apply, all, outputs_stage, flatMap_onRecord]
      simp only [List.map_cons, Stage.applyAll, List.foldl_cons, first]
      exact ih _

end Transform

/-! The numbers at most 42, doubled, in a sink. -/

def doubledKind : Nat → Kind Nat Nat Nat (List Nat) (List Nat)
  | 0 => .logic (numbers _).intoLogic []
  | 1 => .logic (Transform.filter fun value => decide (value ≤ 42)).logic []
  | 2 => .logic (Transform.map fun value => value * 2).logic []
  | _ => .logic (Library.statelessSink
      fun message taken => taken ++ [message.value]) []

theorem doubledKind_forwards (operator : Nat) (inGraph : operator + 1 < 4) :
    (doubledKind operator).forwards = true :=
  match operator, inGraph with
  | 0, _ | 1, _ | 2, _ => rfl
  | more + 3, inGraph => absurd inGraph (by omega)

def doubled : Graph Nat Nat Nat (List Nat) (List Nat) :=
  .inRow 4 id doubledKind doubledKind_forwards

def doubledStart : Worker Nat Nat Nat (List Nat) (List Nat) where
  operators := doubled.intoRunnable soleWorker
  procedure := none
  persisted := []
  logs operator := Log.start (doubled.intoRunnable soleWorker operator)

/-- The calls of one pass after the other, the last operator first. -/
def doubledTrace : List (Worker.Event Nat Nat Nat (List Nat) (List Nat)) :=
  [callWith [40, 41] 0, callWith [] 1, callWith [42, 43] 0] ++
    (List.replicate 4 [callWith [] 3, callWith [] 2, callWith [] 1]).flatten ++
    List.replicate 2 (callWith [] 2) ++ List.replicate 3 (callWith [] 3)

@[irreducible] def doubledEnd : Account Nat Nat Nat (List Nat) (List Nat) :=
  replay (Account.act doubled 0) { toWorker := doubledStart } doubledTrace

def collecting : Stage Nat Nat Nat (List Nat) where
  initial := []
  onRecord record taken := (taken ++ [record.value], [])

def doubling : List (Nat × Stage Nat Nat Nat (List Nat)) :=
  [(1, (Transform.filter fun value => decide (value ≤ 42)).stage []),
    (2, (Transform.map fun value => value * 2).stage [])]

theorem doubled_row : doubled.Row (fun _ => True) (some 0)
    (doubling ++ [(3, collecting)]) (some 3) := by
  have filtered : doubled.Row (fun _ => True) (some 0)
      ([] ++ [(1, (Transform.filter fun value => decide (value ≤ 42)).stage [])])
      (some 1) :=
    .add .nil (by decide) rfl (Transform.recordwise _ []) rfl rfl
  have mapped : doubled.Row (fun _ => True) (some 0) doubling (some 2) :=
    .add filtered (by decide) rfl (Transform.recordwise _ []) rfl rfl
  exact .add mapped (by decide) rfl (Library.statelessSink_recordwise _) rfl rfl

/-- Three of the four numbers are in the sink. -/
theorem doubled_collected :
    (∃ logic, doubled.kind 3 = .logic logic [] ∧
      (doubledEnd.operators 3).body = .logic logic (collecting.after
        (Stage.applyAll (doubling.map Prod.snd)
          (doubledEnd.records (some 0))))) ∧
    collecting.after (Stage.applyAll (doubling.map Prod.snd)
      (doubledEnd.records (some 0))) = [80, 82, 84] := by
  have run : Reaches (Account.act doubled soleWorker.workerId)
      (fun account event => account.allowed doubled soleWorker.workerId event)
      { toWorker := doubledStart } doubledEnd := by
    unfold doubledEnd
    exact Follows.reaches doubledTrace .refl (by decide +kernel)
  have built : doubled.execute soleWorker = .ok doubledStart := rfl
  have meaning := pipeline_meaning built run (fun _ => trivial) doubled_row
    fun _ _ => trivial
  exact ⟨(meaning.2 (by decide +kernel)).2, by decide +kernel⟩

/-! ### Keys -/

section

variable {L U : Type} [DecidableEq K] {operator : StatefulOp K V T V S L}
  {own : KeyLogic K V T V S} {encode : IndexMap K S → Bytes}
  {get : U → OperatorState K S L} {put : OperatorState K S L → U}

theorem Library.statefulOp_inert (keywise : operator.logic.Keywise own)
    (same : ∀ state, put (get state) = state) :
    ((Library.statefulOp (E := E) operator encode).within get put).Inert := by
  intro external state
  simp only [Logic.within, Library.statefulOp,
    StatefulOp.schedule_keywise keywise, same]

/-- Seen through one key a stateful operator is the program of the key. -/
theorem Library.statefulOp_projects (encode : IndexMap K S → Bytes)
    (keywise : operator.logic.Keywise own)
    (back : ∀ state, get (put state) = state) (key : K) :
    ((Library.statefulOp (E := E) operator encode).within get
      put).transducer.Projects (own.transducer operator.default)
        (fun state shadow => (get state).state.get? key = shadow)
        (StatefulOp.asked key) (StatefulOp.answered key)
        (StatefulOp.Stays key) := by
  have step (state : U) (message : Message K V T) :
      let stepped := ((Library.statefulOp (E := E) operator encode).within get
        put).transducer.step state message
      let plain := operator.transducer.step (get state) message
      get stepped.1 = plain.1 ∧ stepped.2 = plain.2 := by
    have output := Library.statefulOp_output (E := E) operator encode
      (get state) message
    simp only [StatefulOp.transducer, StatefulOp.schedule_keywise keywise,
      List.nil_append]
    exact ⟨back _, output⟩
  have plain := StatefulOp.projects keywise key
  constructor
  case heard =>
    intro state shadow message request stays related asked
    rw [(step state message).1, (step state message).2]
    exact plain.heard _ _ _ _ stays related asked
  case unheard =>
    intro state shadow message stays related unasked
    rw [(step state message).1, (step state message).2]
    exact plain.unheard _ _ _ stays related unasked

variable [MaybeTime T] [LT T] [DecidableLT T] {graph : Graph K V T U E}

/-- Whatever the schedule and whatever the other keys get, a stateful operator
of a worker has the state of a key to which the program of the key comes with
the records and epochs it has taken, in the order in which they were sent, and
has sent the records of that program. -/
theorem key_meaning {context : BuildContext} {start : Worker K V T U E}
    {account : Account K V T U E}
    (built : graph.execute context = .ok start)
    (run : Reaches (Account.act graph context.workerId)
      (fun account event => account.allowed graph context.workerId event)
      { toWorker := start } account)
    (keywise : operator.logic.Keywise own)
    (same : ∀ state, put (get state) = state)
    (back : ∀ state, get (put state) = state) {position : Nat}
    (inGraph : position < graph.size) {initial : U} {source : Option Nat}
    (kind : graph.kind position =
      .logic ((Library.statefulOp operator encode).within get put) initial)
    (upstream : graph.upstream position = [source]) {key : K}
    (stays : ∀ message ∈ account.sent source, StatefulOp.Stays key message) :
    ∃ taken state,
      taken ++ (account.operators position).input.queue 0 =
        (account.sent source).filter (graph.carried position 0) ∧
      (account.operators position).body =
        .logic ((Library.statefulOp operator encode).within get put) state ∧
      (get state).state.get? key = (own.transducer operator.default).after
        ((get initial).state.get? key)
        (taken.filterMap (StatefulOp.asked key)) ∧
      (account.sent (some position)).filterMap (StatefulOp.answered key) =
        (own.transducer operator.default).outputs
          ((get initial).state.get? key)
          (taken.filterMap (StatefulOp.asked key)) := by
  have played := Account.Played.reaches built run
  have fed := played.fed position inGraph source upstream
  obtain ⟨body, sent⟩ := played.replays position inGraph _ initial kind
    (Library.statefulOp_inert keywise same)
  have taken : ∀ message ∈ account.taken position,
      StatefulOp.Stays key message := by
    intro message member
    apply stays
    have inside : message ∈
        (account.sent source).filter (graph.carried position 0) :=
      fed ▸ List.mem_append_left _ member
    exact List.mem_of_mem_filter inside
  obtain ⟨state, outputs⟩ :=
    (Library.statefulOp_projects (E := E) encode keywise back key).run rfl taken
  exact ⟨account.taken position, _, fed, body, state, by rw [sent, outputs]⟩

end

/-! The sums of the even and of the odd numbers. -/

def addTo (_ : Nat) (value sum : Nat) : Nat × Option Nat :=
  (sum + value, some (sum + value))

def runningSum : StatefulOp Nat Nat Nat Nat Nat Unit where
  operatorId := 2
  logic := mapperOp fun memory key value sum => (memory, addTo key value sum)
  default := 0
  encode sum := [UInt8.ofNat sum]
  decode bytes := (bytes.headD 0).toNat

def sumOf : KeyLogic Nat Nat Nat Nat Nat where
  onData message sum := ((addTo message.key message.value sum).2,
    [⟨message.key, (addTo message.key message.value sum).1, message.timestamp⟩])
  onEpoch _ := some

abbrev Sums := OperatorState Nat Nat Unit

def sumsKind : Nat → Kind Nat Nat Nat Sums (List Nat)
  | 0 => .logic (numbers _).intoLogic ⟨.empty, ()⟩
  | 1 => .logic (Library.keyLocal fun message => message.value % 2)
      ⟨.empty, ()⟩
  | _ => .logic ((Library.statefulOp runningSum fun state =>
      state.values.map UInt8.ofNat).within id id) ⟨.empty, ()⟩

theorem sumsKind_forwards (operator : Nat) (inGraph : operator + 1 < 3) :
    (sumsKind operator).forwards = true :=
  match operator, inGraph with
  | 0, _ | 1, _ => rfl
  | more + 2, inGraph => absurd inGraph (by omega)

def sums : Graph Nat Nat Nat Sums (List Nat) :=
  .inRow 3 id sumsKind sumsKind_forwards

def sumsStart : Worker Nat Nat Nat Sums (List Nat) where
  operators := sums.intoRunnable soleWorker
  procedure := none
  persisted := []
  logs operator := Log.start (sums.intoRunnable soleWorker operator)

def sumsTrace : List (Worker.Event Nat Nat Nat Sums (List Nat)) :=
  .step 0 ⟨[1, 2, 3, 4, 5], 0⟩ :: List.replicate 5 (.step 1 ⟨[], 0⟩) ++
    List.replicate 4 (.step 2 ⟨[], 0⟩)

@[irreducible] def sumsEnd : Account Nat Nat Nat Sums (List Nat) :=
  replay (Account.act sums 0) { toWorker := sumsStart } sumsTrace

/-- The last odd number is not taken yet. -/
theorem sums_odd :
    (∃ taken state,
      taken ++ (sumsEnd.operators 2).input.queue 0 =
        (sumsEnd.sent (some 1)).filter (sums.carried 2 0) ∧
      (sumsEnd.operators 2).body = .logic ((Library.statefulOp runningSum
        fun state => state.values.map UInt8.ofNat).within id id) state ∧
      state.state.get? 1 = (sumOf.transducer 0).after none
        (taken.filterMap (StatefulOp.asked 1)) ∧
      (sumsEnd.sent (some 2)).filterMap (StatefulOp.answered 1) =
        (sumOf.transducer 0).outputs none
          (taken.filterMap (StatefulOp.asked 1))) ∧
    (sumsEnd.sent (some 2)).filterMap (StatefulOp.answered 1) =
      [⟨1, 1, 1⟩, ⟨1, 4, 3⟩] := by
  have run : Reaches (Account.act sums soleWorker.workerId)
      (fun account event => account.allowed sums soleWorker.workerId event)
      { toWorker := sumsStart } sumsEnd := by
    unfold sumsEnd
    exact Follows.reaches sumsTrace .refl (by decide +kernel)
  have built : sums.execute soleWorker = .ok sumsStart := rfl
  have forgets : ∀ (memory : Unit) key value sum,
      ((memory, addTo key value sum) : Unit × Nat × Option Nat).2 =
        addTo key value sum := fun _ _ _ _ => rfl
  have keywise : runningSum.logic.Keywise sumOf := mapperOp_keywise forgets
  have stays : ∀ message ∈ sumsEnd.sent (some 1),
      StatefulOp.Stays 1 message := by
    have records : ∀ message ∈ sumsEnd.sent (some 1),
        message.isAcquire = false ∧ message.isClone = false := by
      decide +kernel
    intro message member
    obtain ⟨noState, noClone⟩ := records message member
    refine ⟨fun isCollect => ?_, fun moved isAcquire => ?_⟩
    · rw [isCollect] at noClone
      cases noClone
    · rw [isAcquire] at noState
      cases noState
  exact ⟨key_meaning built run keywise (fun _ => rfl) (fun _ => rfl)
    (show 2 < sums.size by decide) rfl rfl stays, by decide +kernel⟩

end Malstrom.Stream
