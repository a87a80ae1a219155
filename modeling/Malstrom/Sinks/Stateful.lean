import Malstrom.Operators.Restart

namespace Malstrom.Sinks

open Data Operators Snapshot

variable {K V T Part S P B : Type}

/-! A sink whose partitions are spread over the workers and moved by rescales,
and what a restart leaves of them. -/

/-- The user's part of a sink: `P` is a partition in use, `S` the state it is
rebuilt from and `B` what the builder of partitions remembers. -/
structure StatefulSinkImpl (K V T Part S P B : Type) where
  buildPart : B → Part → Option S → P × B
  sink : P → DataMessage K V T → P
  snapshot : P → S
  collect : P → S

structure StatefulSink (K V T Part S P B : Type) where
  operatorId : OperatorId
  builder : StatefulSinkImpl K V T Part S P B
  encode : S → Bytes
  decode : Bytes → S

structure PartitionOp (Part P B : Type) where
  partitions : IndexMap Part P
  partBuilder : B

inductive PartCall (K V T S : Type) where
  | buildPart (state : Option S)
  | sink (message : DataMessage K V T)
  | snapshot
  | collect

structure SinkEffects (K V T Part S : Type) where
  output : List (Message Part Unit NoTime) := []
  calls : List (Part × PartCall K V T S) := []
  report : Report Part S := .nothing

namespace StatefulSink

variable [DecidableEq Part] (sink : StatefulSink K V T Part S P B)

/-- What was persisted for the operator is not asked for. -/
def new (_persisted : Option Bytes) (partBuilder : B) : PartitionOp Part P B :=
  { partitions := .empty, partBuilder := partBuilder }

def addPartition (op : PartitionOp Part P B) (part : Part)
    (state : Option S) : PartitionOp Part P B :=
  let built := sink.builder.buildPart op.partBuilder part state
  { partitions := op.partitions.insert part built.1, partBuilder := built.2 }

/-- The partition is built if the operator has none of this part yet. -/
def onData (op : PartitionOp Part P B)
    (record : DataMessage Part (K × V) T) :
    PartitionOp Part P B × SinkEffects K V T Part S :=
  let part := record.key
  let message := ⟨record.value.1, record.value.2, record.timestamp⟩
  match op.partitions.get? part with
  | some partition =>
      let sunk := sink.builder.sink partition message
      ({ op with partitions := op.partitions.insert part sunk },
        { calls := [(part, .sink message)] })
  | none =>
      let built := sink.builder.buildPart op.partBuilder part none
      let sunk := sink.builder.sink built.1 message
      ({ partitions := op.partitions.insert part sunk, partBuilder := built.2 },
        { calls := [(part, .buildPart none), (part, .sink message)] })

/-- The records of the operator have the part they were assigned to as their
key. -/
def receive (op : PartitionOp Part P B) (message : Message Part (K × V) T) :
    PartitionOp Part P B × SinkEffects K V T Part S :=
  match message with
  | .data record => sink.onData op record
  | .epoch _ => (op, {})
  | .absBarrier =>
      (op, { output := [.absBarrier]
             calls := op.partitions.keys.map fun part => (part, .snapshot)
             report := .persist sink.operatorId
              (op.partitions.map sink.builder.snapshot) })
  | .rescale rescale => (op, { output := [.rescale rescale] })
  | .suspendMarker => (op, { output := [.suspendMarker] })
  | .interrogate =>
      (op, { output := [.interrogate], report := .keys op.partitions.keys })
  | .collect key =>
      match op.partitions.get? key with
      | some partition =>
          ({ op with partitions := op.partitions.swapRemove key },
            { output := [.collect key]
              calls := [(key, .collect)]
              report := .state sink.operatorId
                (sink.encode (sink.builder.collect partition)) })
      | none => (op, { output := [.collect key] })
  | .acquire acquire =>
      let taken := acquire.takeState sink.operatorId
      match taken.1 with
      | some (part, bytes) =>
          (sink.addPartition op part (some (sink.decode bytes)),
            { output := [.acquire taken.2]
              calls := [(part, .buildPart (some (sink.decode bytes)))] })
      | none => (op, { output := [.acquire taken.2] })

/-- The message makes the operator hold the part. -/
def Brings (part : Part) : Message Part (K × V) T → Prop
  | .data record => record.key = part
  | .acquire acquire =>
      acquire.key = part ∧ sink.operatorId ∈ acquire.collection
  | .epoch _ | .absBarrier | .rescale _ | .suspendMarker | .interrogate
  | .collect _ => False

/-- One of these messages brings the part, and no later one collects it. -/
def Brought (part : Part) : List (Message Part (K × V) T) → Prop
  | [] => False
  | message :: rest =>
      Brought part rest ∨
        sink.Brings part message ∧ ∀ later ∈ rest, later ≠ .collect part

end StatefulSink

namespace StatefulSinkImpl

variable (builder : StatefulSinkImpl K V T Part S P B)

/-- All that can be told about a partition: its snapshot and its state when it
is collected, after any records. -/
def behaviour (partition : P) (messages : List (DataMessage K V T)) : S × S :=
  let later := messages.foldl builder.sink partition
  (builder.snapshot later, builder.collect later)

/-- A partition which is built from a snapshot behaves like the one it was
taken of. -/
structure Restores : Prop where
  stable : ∀ memory other part state,
    builder.behaviour (builder.buildPart memory part state).1 =
      builder.behaviour (builder.buildPart other part state).1
  restored : ∀ memory part partition,
    builder.behaviour
        (builder.buildPart memory part (some (builder.snapshot partition))).1 =
      builder.behaviour partition

end StatefulSinkImpl

section

variable [DecidableEq Part] {sink : StatefulSink K V T Part S P B}
  {op other : PartitionOp Part P B}

namespace StatefulSink

/-! ### The partitions the operator holds -/

theorem mem_receive (part : Part) (message : Message Part (K × V) T) :
    part ∈ (sink.receive op message).1.partitions ↔
      sink.Brings part message ∨
        part ∈ op.partitions ∧ message ≠ .collect part := by
  cases message with
  | data record =>
      have held : part ∈ (sink.onData op record).1.partitions ↔
          part ∈ op.partitions ∨ part = record.key := by
        simp only [onData]
        split <;> exact IndexMap.mem_insert
      simp only [receive, held, Brings]
      grind
  | collect key =>
      simp only [receive, Brings]
      split
      next => simp [eq_comm]
      next absent =>
        have missing := IndexMap.get?_eq_none.mp absent
        grind
  | acquire acquire =>
      simp only [receive, Acquire.takeState, Brings]
      cases found : acquire.collection.get? sink.operatorId with
      | none =>
          have missing := IndexMap.get?_eq_none.mp found
          simp [missing]
      | some bytes =>
          have member := IndexMap.mem_of_get?_eq_some found
          simp [addPartition, member, or_comm, eq_comm]
  | epoch | absBarrier | rescale | suspendMarker | interrogate =>
      simp [receive, Brings]

theorem mem_run (part : Part) (messages : List (Message Part (K × V) T)) :
    part ∈ (answer sink.receive op messages).1.partitions ↔
      sink.Brought part messages ∨
        part ∈ op.partitions ∧ ∀ message ∈ messages, message ≠ .collect part := by
  induction messages generalizing op with
  | nil => simp [Brought]
  | cons message rest ih =>
      rw [answer_cons, ih, mem_receive, Brought, List.forall_mem_cons]
      tauto

/-! ### Operators whose partitions behave alike -/

def Alike (sink : StatefulSink K V T Part S P B)
    (op other : PartitionOp Part P B) : Prop :=
  op.partitions.map sink.builder.behaviour =
    other.partitions.map sink.builder.behaviour

theorem Alike.get? (alike : sink.Alike op other) (part : Part) :
    (op.partitions.get? part).map sink.builder.behaviour =
      (other.partitions.get? part).map sink.builder.behaviour := by
  rw [← IndexMap.get?_map, ← IndexMap.get?_map]
  exact congrArg (fun map => map.get? part) alike

omit [DecidableEq Part] in
theorem Alike.keys (alike : sink.Alike op other) :
    op.partitions.keys = other.partitions.keys := by
  rw [← IndexMap.keys_map op.partitions sink.builder.behaviour,
    ← IndexMap.keys_map other.partitions sink.builder.behaviour]
  exact congrArg IndexMap.keys alike

omit [DecidableEq Part] in
theorem Alike.snapshots (alike : sink.Alike op other) :
    op.partitions.map sink.builder.snapshot =
      other.partitions.map sink.builder.snapshot := by
  have observed (map : IndexMap Part P) : map.map sink.builder.snapshot =
      (map.map sink.builder.behaviour).map fun behaviour =>
        (behaviour []).1 := by
    apply IndexMap.ext_entries
    simp [IndexMap.map, StatefulSinkImpl.behaviour]
  rw [observed, observed, alike]

theorem Alike.insert (alike : sink.Alike op other) (part : Part)
    {left right : P}
    (same : sink.builder.behaviour left = sink.builder.behaviour right)
    (memory again : B) :
    sink.Alike ⟨op.partitions.insert part left, memory⟩
      ⟨other.partitions.insert part right, again⟩ := by
  unfold Alike at *
  rw [IndexMap.map_insert, IndexMap.map_insert, alike, same]

theorem Alike.swapRemove (alike : sink.Alike op other) (part : Part) :
    sink.Alike { op with partitions := op.partitions.swapRemove part }
      { other with partitions := other.partitions.swapRemove part } := by
  unfold Alike at *
  rw [IndexMap.map_swapRemove, IndexMap.map_swapRemove, alike]

omit [DecidableEq Part] in
/-- A record leaves partitions which behave alike alike. -/
theorem behaviour_sink {left right : P}
    (same : sink.builder.behaviour left = sink.builder.behaviour right)
    (message : DataMessage K V T) :
    sink.builder.behaviour (sink.builder.sink left message) =
      sink.builder.behaviour (sink.builder.sink right message) := by
  funext messages
  exact congrFun same (message :: messages)

/-- Both operators do the same with a message and stay alike. -/
theorem receive_alike (restores : sink.builder.Restores)
    (message : Message Part (K × V) T) (alike : sink.Alike op other) :
    sink.Alike (sink.receive op message).1 (sink.receive other message).1 ∧
      (sink.receive op message).2 = (sink.receive other message).2 := by
  cases message with
  | data record =>
      have same := alike.get? record.key
      simp only [receive, onData]
      cases left : op.partitions.get? record.key with
      | some partition =>
          obtain ⟨counterpart, right, behaves⟩ :=
            Option.map_eq_some_iff.mp ((left ▸ same).symm)
          simp only [right]
          exact ⟨alike.insert _ (behaviour_sink behaves.symm _) _ _, trivial⟩
      | none =>
          have right := Option.map_eq_none_iff.mp ((left ▸ same).symm)
          simp only [right]
          exact ⟨alike.insert _ (behaviour_sink (restores.stable _ _ _ _) _) _ _,
            trivial⟩
  | collect key =>
      have same := alike.get? key
      simp only [receive]
      cases left : op.partitions.get? key with
      | some partition =>
          obtain ⟨counterpart, right, behaves⟩ :=
            Option.map_eq_some_iff.mp ((left ▸ same).symm)
          have collected : sink.builder.collect partition =
              sink.builder.collect counterpart :=
            congrArg Prod.snd (congrFun behaves.symm [])
          simp only [right, collected]
          exact ⟨alike.swapRemove key, trivial⟩
      | none =>
          have right := Option.map_eq_none_iff.mp ((left ▸ same).symm)
          simp only [right]
          exact ⟨alike, trivial⟩
  | acquire acquire =>
      simp only [receive]
      split
      · exact ⟨alike.insert _ (restores.stable _ _ _ _) _ _, rfl⟩
      · exact ⟨alike, rfl⟩
  | absBarrier =>
      refine ⟨alike, ?_⟩
      simp only [receive, alike.keys, alike.snapshots]
  | interrogate =>
      refine ⟨alike, ?_⟩
      simp only [receive, alike.keys]
  | epoch | rescale | suspendMarker => exact ⟨alike, rfl⟩

/-! ### A restart -/

/-- The calls which the answers to some messages make for one part. -/
def callsOf (part : Part) (effects : List (SinkEffects K V T Part S)) :
    List (PartCall K V T S) :=
  effects.flatMap fun effect =>
    (effect.calls.filter fun call => decide (call.1 = part)).map Prod.snd

/-- After any number of the messages behind a barrier, an operator which was
built from what was persisted there has made the calls of one which was never
stopped, for every part, and their partitions behave alike. -/
def PartitionsResume (sink : StatefulSink K V T Part S P B)
    (codec : Codec (IndexMap Part S)) (persisted : Option Bytes)
    (memory again : B) (before rest : List (Message Part (K × V) T)) : Prop :=
  let stopped := (answer sink.receive (new persisted memory) before).1
  let barrier := sink.receive stopped .absBarrier
  let resumed : PartitionOp Part P B :=
    new (barrier.2.report.persisted codec) again
  ∀ first, first <+: rest → ∀ part,
    let uninterrupted := answer sink.receive barrier.1 first
    let restarted := answer sink.receive resumed first
    callsOf part restarted.2 = callsOf part uninterrupted.2 ∧
      (restarted.1.partitions.get? part).map sink.builder.behaviour =
        (uninterrupted.1.partitions.get? part).map sink.builder.behaviour

/-- The operator resumes where it has no partition at the barrier, and only
there. -/
theorem partitions_resume_iff (restores : sink.builder.Restores)
    (codec : Codec (IndexMap Part S)) (persisted : Option Bytes)
    (memory again : B) (before rest : List (Message Part (K × V) T)) :
    sink.PartitionsResume codec persisted memory again before rest ↔
      ∀ part, ¬ sink.Brought part before := by
  have held (part : Part) :
      part ∈ (answer sink.receive (new persisted memory)
        before).1.partitions ↔ sink.Brought part before := by
    rw [mem_run]
    simp [new]
  constructor
  · intro resumes part brought
    obtain ⟨partition, found⟩ := IndexMap.exists_get?_of_mem
      ((held part).mpr brought)
    have lost : none = some (sink.builder.behaviour partition) :=
      (resumes [] List.nil_prefix part).2.trans
        (congrArg (Option.map sink.builder.behaviour) found)
    cases lost
  · intro none first _ part
    have empty : sink.Alike
        (new ((sink.receive (answer sink.receive (new persisted memory)
          before).1 .absBarrier).2.report.persisted codec) again)
        (answer sink.receive (new persisted memory) before).1 := by
      unfold Alike
      rw [IndexMap.eq_empty fun part member => none part ((held part).mp member)]
      rfl
    obtain ⟨alike, same⟩ := answer_alike sink.Alike
      (fun _ _ message => receive_alike restores message) empty first
    exact ⟨congrArg (callsOf part) same, alike.get? part⟩

end StatefulSink

end

/-- Partitions which number the records they are given, like lines of a
file. -/
def numbering : StatefulSink Unit Unit Nat Bool UInt8 UInt8 Unit where
  operatorId := 0
  builder :=
    { buildPart := fun _ _ state => (state.getD 0, ())
      sink := fun next _ => next + 1
      snapshot := id
      collect := id }
  encode := byteCodec.toVec
  decode bytes := (byteCodec.fromSlice bytes).getD 0

theorem numbering_restores : numbering.builder.Restores where
  stable _ _ _ _ := rfl
  restored _ _ _ := rfl

def recordAt (time : Nat) : Message Bool (Unit × Unit) Nat :=
  .data ⟨true, ((), ()), time⟩

theorem collected_resumes :
    numbering.builder.Restores ∧
      numbering.PartitionsResume mapCodec none () ()
        [recordAt 0, .collect true]
        [recordAt 1, .acquire ⟨false, ⟨[(0, [5])], by decide⟩⟩, .absBarrier] :=
  ⟨numbering_restores,
    (StatefulSink.partitions_resume_iff numbering_restores mapCodec none () ()
        _ _).mpr fun part => by
      cases part <;> simp [StatefulSink.Brought, StatefulSink.Brings, recordAt]⟩

/-- The second record is numbered like the first one, in a partition which is
built without state. -/
theorem numbering_starts_over :
    numbering.builder.Restores ∧
      ¬ numbering.PartitionsResume mapCodec none () () [recordAt 0]
        [recordAt 1] := by
  refine ⟨numbering_restores, fun resumes => ?_⟩
  obtain ⟨calls, -⟩ := resumes [recordAt 1] List.prefix_rfl true
  cases calls

end Malstrom.Sinks
