import Mathlib.Data.List.Basic
import Malstrom.Types
import Malstrom.Data.Transition

namespace Malstrom.Kafka

open Data

variable {B C : Type}

/-! A source partition which reads one partition of a Kafka topic.  `B` is the
state the brokers keep for the partition and the consumer group, `C` a
consumer. -/

structure KafkaMessage where
  topic : String
  partition : Int
  offset : Int
  payload : Option Bytes
  key : Option Bytes
  timestamp : Option Int
  deriving DecidableEq

structure KafkaRecord where
  topic : String
  partition : Option Int
  payload : Bytes
  key : Option Bytes
  timestamp : Option Int
  deriving DecidableEq

/-- What the source uses of rdkafka: a new consumer with the partition assigned
to it, a poll of it, and the commit of an offset for the group. -/
structure Rdkafka (B C : Type) where
  assign : B → C
  poll : B → C → Option KafkaMessage × C
  commit : B → Int → B

structure KafkaSourcePartition (C : Type) where
  consumer : C
  lastRecvdOffset : Option Int

def KafkaRecord.fromMessage (message : KafkaMessage) : Option KafkaRecord :=
  message.payload.map fun payload =>
    { topic := message.topic
      partition := some message.partition
      payload := payload
      key := message.key
      timestamp := message.timestamp }

/-- The state of the partition is kept, the consumer is not told of it. -/
def Rdkafka.buildPart (rdkafka : Rdkafka B C) (broker : B)
    (partState : Option (Option Int)) : KafkaSourcePartition C :=
  { consumer := rdkafka.assign broker, lastRecvdOffset := partState.join }

namespace KafkaSourcePartition

def poll (partition : KafkaSourcePartition C) (rdkafka : Rdkafka B C)
    (broker : B) :
    Option (KafkaRecord × Int) × Option KafkaMessage × KafkaSourcePartition C :=
  match rdkafka.poll broker partition.consumer with
  | (none, consumer) => (none, none, { partition with consumer := consumer })
  | (some message, consumer) =>
      ((KafkaRecord.fromMessage message).map fun record =>
          (record, message.offset),
        some message,
        { consumer := consumer, lastRecvdOffset := some message.offset })

def snapshot (partition : KafkaSourcePartition C) (rdkafka : Rdkafka B C)
    (broker : B) : Option Int × B :=
  (partition.lastRecvdOffset,
    match partition.lastRecvdOffset with
    | some offset => rdkafka.commit broker offset
    | none => broker)

def collect (partition : KafkaSourcePartition C) : Option Int :=
  partition.lastRecvdOffset

end KafkaSourcePartition

def fromOffset (log : List KafkaMessage) (offset : Int) : List KafkaMessage :=
  log.filter fun message => decide (offset ≤ message.offset)

def firstFrom (log : List KafkaMessage) (offset : Int) : Option KafkaMessage :=
  log.find? fun message => decide (offset ≤ message.offset)

def Ordered (log : List KafkaMessage) : Prop :=
  log.Pairwise fun earlier later => earlier.offset < later.offset

/-- The documented behaviour of rdkafka on a partition with this log: without
an offset a consumer starts at the offset committed for its group, or where
`auto.offset.reset` puts it, and it reads the records from there in order. -/
structure Documented (rdkafka : Rdkafka B C) (log : List KafkaMessage)
    (resetTo : Int) (committed : B → Option Int) (position : C → Int) :
    Prop where
  assigned : ∀ broker,
    position (rdkafka.assign broker) = (committed broker).getD resetTo
  waited : ∀ broker consumer, (rdkafka.poll broker consumer).1 = none →
    position (rdkafka.poll broker consumer).2 = position consumer
  read : ∀ broker consumer message,
    (rdkafka.poll broker consumer).1 = some message →
      firstFrom log (position consumer) = some message ∧
        position (rdkafka.poll broker consumer).2 = message.offset + 1
  commits : ∀ broker offset,
    committed (rdkafka.commit broker offset) = some offset

/-! The life of a partition across restarts and moves to other workers. -/

structure Life (B C : Type) where
  broker : B
  partition : Option (KafkaSourcePartition C)
  /-- What `snapshot` and `collect` have returned. -/
  saved : List (Option Int)
  /-- The state of the last build. -/
  restored : Option Int
  /-- What was read since the last build. -/
  reads : List KafkaMessage

inductive Life.Event where
  | poll
  | snapshot
  | collect
  | rebuild (state : Option Int)
  deriving DecidableEq

namespace Life

def start (rdkafka : Rdkafka B C) (broker : B) : Life B C :=
  { broker := broker
    partition := some (rdkafka.buildPart broker none)
    saved := []
    restored := none
    reads := [] }

def next (rdkafka : Rdkafka B C) (life : Life B C) : Event → Life B C
  | .poll =>
      match life.partition with
      | none => life
      | some partition =>
          let polled := partition.poll rdkafka life.broker
          { life with
            partition := some polled.2.2
            reads := life.reads ++ polled.2.1.toList }
  | .snapshot =>
      match life.partition with
      | none => life
      | some partition =>
          let taken := partition.snapshot rdkafka life.broker
          { life with broker := taken.2, saved := life.saved ++ [taken.1] }
  | .collect =>
      match life.partition with
      | none => life
      | some partition =>
          { life with
            partition := none, saved := life.saved ++ [partition.collect] }
  | .rebuild state =>
      { life with
        partition := some (rdkafka.buildPart life.broker (some state))
        restored := state
        reads := [] }

def step (rdkafka : Rdkafka B C) (life : Life B C) (event : Event) :
    Except Empty (Life B C) := .ok (life.next rdkafka event)

/-- A partition is rebuilt with a state which it has returned. -/
def allowed (life : Life B C) : Event → Prop
  | .rebuild state => state ∈ life.saved
  | .poll | .snapshot | .collect => True

end Life

instance (life : Life B C) :
    (event : Life.Event) → Decidable (life.allowed event)
  | .rebuild state => inferInstanceAs (Decidable (state ∈ life.saved))
  | .poll | .snapshot | .collect => isTrue trivial

/-- The group starts behind the last received offset, and no later record is
before that. -/
def Resumes (log : List KafkaMessage) (last startsAt : Int) : Prop :=
  last < startsAt ∧ ∀ message ∈ log, last < message.offset →
    startsAt ≤ message.offset

instance (log : List KafkaMessage) (last startsAt : Int) :
    Decidable (Resumes log last startsAt) :=
  inferInstanceAs (Decidable (last < startsAt ∧ ∀ message ∈ log,
    last < message.offset → startsAt ≤ message.offset))

def Life.resumes (log : List KafkaMessage) (resetTo : Int)
    (committed : B → Option Int) (life : Life B C) : Life.Event → Prop
  | .rebuild state => ∀ last ∈ state,
      Resumes log last ((committed life.broker).getD resetTo)
  | .poll | .snapshot | .collect => True

instance (log : List KafkaMessage) (resetTo : Int)
    (committed : B → Option Int) (life : Life B C) :
    (event : Life.Event) → Decidable (life.resumes log resetTo committed event)
  | .rebuild state => inferInstanceAs (Decidable (∀ last ∈ state,
      Resumes log last ((committed life.broker).getD resetTo)))
  | .poll | .snapshot | .collect => isTrue trivial

theorem firstFrom_le {log : List KafkaMessage} (ordered : Ordered log)
    {offset : Int} {first : KafkaMessage}
    (isFirst : firstFrom log offset = some first) :
    first ∈ log ∧ offset ≤ first.offset ∧
      ∀ message ∈ log, offset ≤ message.offset →
        first.offset ≤ message.offset := by
  obtain ⟨isFrom, before, after, rfl, earlier⟩ :=
    List.find?_eq_some_iff_append.mp isFirst
  refine ⟨by simp, by simpa using isFrom, ?_⟩
  intro message member isFrom
  cases List.mem_append.mp member with
  | inl isBefore => simpa [isFrom] using earlier message isBefore
  | inr isAfter =>
      cases List.mem_cons.mp isAfter with
      | inl same => exact same ▸ Int.le_refl _
      | inr later =>
          have := (List.pairwise_append.mp ordered).2.1
          exact Int.le_of_lt ((List.pairwise_cons.mp this).1 message later)

theorem fromOffset_eq_cons {log : List KafkaMessage} (ordered : Ordered log)
    {offset : Int} {first : KafkaMessage}
    (isFirst : firstFrom log offset = some first) :
    fromOffset log offset = first :: fromOffset log (first.offset + 1) := by
  obtain ⟨isFrom, before, after, rfl, earlier⟩ :=
    List.find?_eq_some_iff_append.mp isFirst
  have isFrom : offset ≤ first.offset := by simpa using isFrom
  obtain ⟨-, ordered, ahead⟩ := List.pairwise_append.mp ordered
  have behind := (List.pairwise_cons.mp ordered).1
  have skipped : before.filter (fun message =>
      decide (offset ≤ message.offset)) = [] := by
    rw [List.filter_eq_nil_iff]
    intro message member
    simpa using earlier message member
  have passed : before.filter (fun message =>
      decide (first.offset + 1 ≤ message.offset)) = [] := by
    rw [List.filter_eq_nil_iff]
    intro message member
    have := ahead message member first List.mem_cons_self
    simp only [decide_eq_true_eq]
    omega
  have kept : ∀ start ≤ first.offset + 1, after.filter (fun message =>
      decide (start ≤ message.offset)) = after := by
    intro start bound
    rw [List.filter_eq_self]
    intro message member
    have := behind message member
    simp only [decide_eq_true_eq]
    omega
  have beyond : ¬ first.offset + 1 ≤ first.offset := by omega
  rw [fromOffset, fromOffset, List.filter_append, List.filter_append, skipped,
    passed, List.nil_append, List.nil_append,
    List.filter_cons_of_pos (by simpa only [decide_eq_true_eq] using isFrom),
    List.filter_cons_of_neg (by simpa only [decide_eq_true_eq] using beyond),
    kept offset (by omega), kept (first.offset + 1) (Int.le_refl _)]

theorem firstFrom_eq_head? (log : List KafkaMessage) (offset : Int) :
    firstFrom log offset = (fromOffset log offset).head? := by
  rw [fromOffset, List.head?_filter, firstFrom]

theorem Resumes.fromOffset {log : List KafkaMessage} {last startsAt : Int}
    (resumes : Resumes log last startsAt) :
    fromOffset log startsAt = fromOffset log (last + 1) := by
  apply List.filter_congr
  intro message member
  have later := resumes.2 message member
  have := resumes.1
  simp only [decide_eq_decide]
  omega

/-- The first record from where the group starts is the first one after the
last received offset exactly when the group starts where it should. -/
theorem firstFrom_eq_iff {log : List KafkaMessage} (ordered : Ordered log)
    {last startsAt : Int}
    (received : ∃ message ∈ log, message.offset = last) :
    firstFrom log startsAt = firstFrom log (last + 1) ↔
      Resumes log last startsAt := by
  have exists_first : ∀ offset, ∀ message ∈ log, offset ≤ message.offset →
      ∃ first, firstFrom log offset = some first := by
    intro offset message member isFrom
    exact Option.isSome_iff_exists.mp
      (List.find?_isSome.mpr ⟨message, member, by simpa using isFrom⟩)
  constructor
  · intro same
    constructor
    · by_contra behind
      obtain ⟨message, member, rfl⟩ := received
      obtain ⟨first, isFirst⟩ :=
        exists_first startsAt message member (by omega)
      have before := (firstFrom_le ordered isFirst).2.2 message member
        (by omega)
      have after := (firstFrom_le ordered (same ▸ isFirst)).2.1
      omega
    · intro message member later
      obtain ⟨first, isFirst⟩ := exists_first (last + 1) message member later
      have before := (firstFrom_le ordered isFirst).2.2 message member later
      have := (firstFrom_le ordered (same.trans isFirst)).2.1
      omega
  · intro resumes
    rw [firstFrom_eq_head?, firstFrom_eq_head?, resumes.fromOffset]

/-! What a life keeps. -/

/-- Every offset in a saved state is that of a record. -/
structure Life.Tracked (log : List KafkaMessage) (life : Life B C) : Prop where
  saved : ∀ last, some last ∈ life.saved →
    ∃ message ∈ log, message.offset = last
  received : ∀ partition last, life.partition = some partition →
    partition.lastRecvdOffset = some last →
    ∃ message ∈ log, message.offset = last

/-- What was read since the restored state and what is still to be read are
the records after it. -/
def Life.Resumed (log : List KafkaMessage) (position : C → Int)
    (life : Life B C) : Prop :=
  ∀ last, life.restored = some last →
    life.reads <+: fromOffset log (last + 1) ∧
    ∀ partition, life.partition = some partition →
      fromOffset log (last + 1) =
        life.reads ++ fromOffset log (position partition.consumer)

variable {rdkafka : Rdkafka B C} {log : List KafkaMessage} {resetTo : Int}
  {committed : B → Option Int} {position : C → Int}

theorem polled (documented : Documented rdkafka log resetTo committed position)
    (broker : B) (partition : KafkaSourcePartition C) :
    (∃ consumer, position consumer = position partition.consumer ∧
      (partition.poll rdkafka broker).2 =
        (none, { partition with consumer := consumer })) ∨
    ∃ message consumer,
      firstFrom log (position partition.consumer) = some message ∧
      position consumer = message.offset + 1 ∧
      (partition.poll rdkafka broker).2 = (some message,
        { consumer := consumer, lastRecvdOffset := some message.offset }) := by
  unfold KafkaSourcePartition.poll
  cases isPolled : rdkafka.poll broker partition.consumer with
  | mk message consumer =>
      cases message with
      | none =>
          have := documented.waited broker partition.consumer (by rw [isPolled])
          exact .inl ⟨consumer, by simpa [isPolled] using this, rfl⟩
      | some message =>
          have := documented.read broker partition.consumer message
            (by rw [isPolled])
          exact .inr ⟨message, consumer, this.1,
            by simpa [isPolled] using this.2, rfl⟩

theorem Life.Tracked.step {life next : Life B C} {event : Life.Event}
    (documented : Documented rdkafka log resetTo committed position)
    (ordered : Ordered log) (tracked : life.Tracked log)
    (allowed : life.allowed event)
    (stepped : life.step rdkafka event = .ok next) : next.Tracked log := by
  obtain rfl := Except.ok.inj stepped
  cases event with
  | rebuild state =>
      refine ⟨tracked.saved, ?_⟩
      intro partition last isBuilt received
      obtain rfl := Option.some.inj isBuilt
      have : state = some last := by
        simpa [Rdkafka.buildPart] using received
      exact tracked.saved last (this ▸ allowed)
  | poll =>
      cases running : life.partition with
      | none => simpa [Life.next, running] using tracked
      | some partition =>
          refine ⟨by simpa [Life.next, running] using tracked.saved, ?_⟩
          intro after last isAfter received
          simp only [Life.next, running] at isAfter
          obtain rfl := Option.some.inj isAfter
          cases polled documented life.broker partition with
          | inl waits =>
              obtain ⟨consumer, -, isPolled⟩ := waits
              rw [isPolled] at received
              exact tracked.received partition last running received
          | inr reads =>
              obtain ⟨message, consumer, isFirst, -, isPolled⟩ := reads
              rw [isPolled] at received
              exact ⟨message, (firstFrom_le ordered isFirst).1,
                Option.some.inj received⟩
  | snapshot =>
      cases running : life.partition with
      | none => simpa [Life.next, running] using tracked
      | some partition =>
          refine ⟨?_, by simpa [Life.next, running] using tracked.received⟩
          intro last isSaved
          simp only [Life.next, running, List.mem_append,
            List.mem_singleton] at isSaved
          cases isSaved with
          | inl earlier => exact tracked.saved last earlier
          | inr taken => exact tracked.received partition last running taken.symm
  | collect =>
      cases running : life.partition with
      | none => simpa [Life.next, running] using tracked
      | some partition =>
          refine ⟨?_, by simp [Life.next, running]⟩
          intro last isSaved
          simp only [Life.next, running, List.mem_append,
            List.mem_singleton] at isSaved
          cases isSaved with
          | inl earlier => exact tracked.saved last earlier
          | inr taken => exact tracked.received partition last running taken.symm

theorem Life.Resumed.step {life next : Life B C} {event : Life.Event}
    (documented : Documented rdkafka log resetTo committed position)
    (ordered : Ordered log) (resumed : life.Resumed log position)
    (resumes : life.resumes log resetTo committed event)
    (stepped : life.step rdkafka event = .ok next) :
    next.Resumed log position := by
  obtain rfl := Except.ok.inj stepped
  cases event with
  | rebuild state =>
      intro last restored
      refine ⟨List.nil_prefix, fun partition isBuilt => ?_⟩
      obtain rfl := Option.some.inj isBuilt
      have resumes := resumes last restored
      simp only [Rdkafka.buildPart, documented.assigned]
      exact resumes.fromOffset.symm
  | poll =>
      cases running : life.partition with
      | none => simpa [Life.next, running] using resumed
      | some partition =>
          intro last restored
          simp only [Life.next, running] at restored ⊢
          have ahead := (resumed last restored).2 partition running
          cases polled documented life.broker partition with
          | inl waits =>
              obtain ⟨consumer, same, isPolled⟩ := waits
              simp only [isPolled, Option.toList_none, List.append_nil,
                Option.some.injEq, forall_eq', same]
              exact ⟨(resumed last restored).1, ahead⟩
          | inr reads =>
              obtain ⟨message, consumer, isFirst, moved, isPolled⟩ := reads
              simp only [isPolled, Option.toList_some, Option.some.injEq,
                forall_eq', moved]
              have ahead : fromOffset log (last + 1) =
                  (life.reads ++ [message]) ++
                    fromOffset log (message.offset + 1) := by
                rw [ahead, fromOffset_eq_cons ordered isFirst,
                  List.append_assoc]
                rfl
              exact ⟨⟨_, ahead.symm⟩, ahead⟩
  | snapshot =>
      cases running : life.partition with
      | none => simpa [Life.next, running] using resumed
      | some partition =>
          simpa [Life.Resumed, Life.next, running] using resumed
  | collect =>
      cases running : life.partition with
      | none => simpa [Life.next, running] using resumed
      | some partition =>
          intro last restored
          simp only [Life.next, running] at restored ⊢
          exact ⟨(resumed last restored).1, by simp⟩

/-- When every rebuild finds the group where it should resume, each record
after the restored offset is read once and in order.  A rebuilt partition reads
the first record after the offset of its state exactly in that case. -/
theorem rebuilt_resumes
    (documented : Documented rdkafka log resetTo committed position)
    (ordered : Ordered log) (broker : B) :
    (∀ life : Life B C,
      Reaches (Life.step rdkafka) (fun life event => life.allowed event ∧
        life.resumes log resetTo committed event)
        (Life.start rdkafka broker) life →
      ∀ last, life.restored = some last →
        life.reads <+: fromOffset log (last + 1)) ∧
    ∀ life : Life B C,
      Reaches (Life.step rdkafka) Life.allowed
        (Life.start rdkafka broker) life →
      ∀ last, some last ∈ life.saved →
        (firstFrom log (position
            (rdkafka.buildPart life.broker (some (some last))).consumer) =
          firstFrom log (last + 1) ↔
        Resumes log last ((committed life.broker).getD resetTo)) := by
  constructor
  · intro life run
    have resumed : life.Resumed log position := by
      refine run.invariant _ ?_ fun _ _ _ _ resumed permitted stepped =>
        resumed.step documented ordered permitted.2 stepped
      intro last restored
      simp [Life.start] at restored
    exact fun last restored => (resumed last restored).1
  · intro life run last isSaved
    have tracked : life.Tracked log := by
      refine run.invariant _ ⟨?_, ?_⟩ fun _ _ _ _ tracked permitted stepped =>
        tracked.step documented ordered permitted stepped
      · intro last isSaved
        simp [Life.start] at isSaved
      · intro partition last isBuilt received
        obtain rfl := Option.some.inj isBuilt
        simp [Rdkafka.buildPart] at received
    rw [← firstFrom_eq_iff ordered (tracked.saved last isSaved)]
    simp only [Rdkafka.buildPart, documented.assigned]

/-- A snapshot commits the offset of the last record and not the one after it,
so a partition rebuilt from it reads that record again. -/
theorem snapshot_repeats
    (documented : Documented rdkafka log resetTo committed position)
    {broker : B} {partition : KafkaSourcePartition C} {last : Int}
    (received : partition.lastRecvdOffset = some last) :
    ¬Resumes log last ((committed
      (partition.snapshot rdkafka broker).2).getD resetTo) := by
  intro resumes
  have behind := resumes.1
  simp [KafkaSourcePartition.snapshot, received, documented.commits] at behind

/-! A broker which does what is documented, with three records. -/

def brokerOf (log : List KafkaMessage) (resetTo : Int) :
    Rdkafka (Option Int) Int :=
  { assign := fun committed => committed.getD resetTo
    poll := fun _ position =>
      match firstFrom log position with
      | some message => (some message, message.offset + 1)
      | none => (none, position)
    commit := fun _ offset => some offset }

theorem brokerOf_documented (log : List KafkaMessage) (resetTo : Int) :
    Documented (brokerOf log resetTo) log resetTo id id := by
  refine ⟨fun _ => rfl, ?_, ?_, fun _ _ => rfl⟩
  · intro committed position waits
    simp only [brokerOf] at waits ⊢
    split at waits
    next => simp at waits
    next => simp
  · intro committed position message reads
    simp only [brokerOf] at reads ⊢
    split at reads
    next found isFirst =>
      obtain rfl : found = message := by simpa using reads
      exact ⟨isFirst, by simp⟩
    next => simp at reads

def pets : List KafkaMessage :=
  [⟨"pets", 0, 0, some [1], none, none⟩, ⟨"pets", 0, 1, some [2], none, none⟩,
    ⟨"pets", 0, 2, some [3], none, none⟩]

@[irreducible] def repeated : Life (Option Int) Int :=
  replay (Life.step (brokerOf pets 0)) (Life.start (brokerOf pets 0) none)
    [.poll, .poll, .snapshot, .rebuild (some 1), .poll]

theorem repeated_reads_again :
    Reaches (Life.step (brokerOf pets 0)) Life.allowed
      (Life.start (brokerOf pets 0) none) repeated ∧
    repeated.restored = some 1 ∧
    repeated.reads.map KafkaMessage.offset = [1] ∧
    (firstFrom pets (1 + 1)).map KafkaMessage.offset = some 2 := by
  refine ⟨?_, by decide +kernel⟩
  unfold repeated
  exact Follows.reaches _ .refl (by decide +kernel)

@[irreducible] def rewound : Life (Option Int) Int :=
  replay (Life.step (brokerOf pets 0)) (Life.start (brokerOf pets 0) none)
    [.poll, .snapshot, .poll, .snapshot, .rebuild (some 0), .poll]

theorem rewound_resumes :
    rewound.reads.map KafkaMessage.offset = [1] ∧
      rewound.reads <+: fromOffset pets (0 + 1) := by
  have run : Reaches (Life.step (brokerOf pets 0))
      (fun life event => life.allowed event ∧ life.resumes pets 0 id event)
      (Life.start (brokerOf pets 0) none) rewound := by
    unfold rewound
    exact Follows.reaches _ .refl (by decide +kernel)
  have ordered : Ordered pets := by
    unfold Ordered
    decide +kernel
  exact ⟨by decide +kernel,
    (rebuilt_resumes (brokerOf_documented pets 0) ordered none).1 rewound run 0
      (by decide +kernel)⟩

end Malstrom.Kafka
