import Malstrom.Sources.Restart

namespace Malstrom.Sources

open Data Operators Snapshot

variable {I V : Type}

/-! A source of one part, whose values come from an iterator. -/

/-- `I` is the iterator. -/
structure SingleIteratorSource (I V : Type) where
  operatorId : OperatorId
  next : I → Option V × I
  /-- What the source was made from. -/
  iter : I

/-- The iterator with the index of its next value, and what was looked at but
not taken. -/
structure SingleIteratorPartition (I V : Type) where
  iter : I
  index : Nat := 0
  peeked : Option (Option (Nat × V)) := none

/-- The operator of one worker with its own source object, which has the
iterator until a partition is built. -/
structure SingleIteratorOp (I V : Type) where
  op : PartitionOp Unit Nat (SingleIteratorPartition I V)
  partBuilder : Option I

inductive IteratorPanic where
  /-- Entered unreachable code: `SingleIteratorSource` only has one part. -/
  | unreachable
  | partition (panic : SourcePanic)
  deriving DecidableEq

/-- One schedule of the operator: the finished parts other workers have sent,
and the message in its input, if there is one. -/
structure SourceCall where
  incoming : WorkerId → List Unit
  input : Option (Message Unit Unit NoTime)

namespace SingleIteratorSource

variable (source : SingleIteratorSource I V)

def enumerate (partition : SingleIteratorPartition I V) :
    Option (Nat × V) × SingleIteratorPartition I V :=
  match source.next partition.iter with
  | (some value, iter) =>
      (some (partition.index, value),
        { partition with iter := iter, index := partition.index + 1 })
  | (none, iter) => (none, { partition with iter := iter })

def poll (partition : SingleIteratorPartition I V) :
    Option (V × Nat) × SingleIteratorPartition I V :=
  let taken := match partition.peeked with
    | some peeked => (peeked, { partition with peeked := none })
    | none => source.enumerate partition
  (taken.1.map fun entry => (entry.2, entry.1), taken.2)

def isFinished (partition : SingleIteratorPartition I V) :
    Bool × SingleIteratorPartition I V :=
  match partition.peeked with
  | some peeked => (peeked.isNone, partition)
  | none =>
      let looked := source.enumerate partition
      (looked.1.isNone, { looked.2 with peeked := some looked.1 })

/-- The source without a state of its partitions, as a source which has one.
Its first partition is built like this. -/
def stateful :
    StatefulSource Unit V Nat Unit (SingleIteratorPartition I V) where
  operatorId := source.operatorId
  builder :=
    { listParts := [()]
      buildPart := fun _ _ => { iter := source.iter }
      poll := source.poll
      isFinished := source.isFinished
      snapshot := fun _ => ()
      collect := fun _ => ()
      suspend := id }
  maxTime := 2 ^ 64 - 1
  encode := fun _ => [0xc0]
  decode := fun _ => ()

omit source in
def buildPart (partBuilder : Option I) :
    Except IteratorPanic (SingleIteratorPartition I V × Option I) :=
  match partBuilder with
  | some iter => .ok ({ iter := iter }, none)
  | none => .error .unreachable

omit source in
def addPartition (current : SingleIteratorOp I V) (part : Unit) :
    Except IteratorPanic (SingleIteratorOp I V) :=
  match buildPart current.partBuilder with
  | .ok (partition, partBuilder) =>
      let partitions := current.op.partitions.insert part partition
      .ok { op := { current.op with partitions := partitions }
            partBuilder := partBuilder }
  | .error panic => .error panic

def new (thisWorker : WorkerId) (workerIds : IndexSet WorkerId)
    (state : Option (IndexMap Unit Unit)) :
    Except IteratorPanic (SingleIteratorOp I V) :=
  (state.elim [] IndexMap.keys).foldlM addPartition
    { op := source.stateful.new thisWorker workerIds none
      partBuilder := some source.iter }

def receive (current : SingleIteratorOp I V)
    (message : Message Unit Unit NoTime) (thisWorker : WorkerId) :
    Except IteratorPanic
      (SingleIteratorOp I V × SourceEffects Unit V Nat Unit) :=
  match message with
  | .data record =>
      if record.key ∈ current.op.partitions then .ok (current, {})
      else (addPartition current record.key).map fun added => (added, {})
  | .acquire acquire =>
      let taken := acquire.takeState source.operatorId
      match taken.1 with
      | some (part, _) => (addPartition current part).map fun added =>
          (added, { output := [.acquire taken.2] })
      | none => .ok (current, { output := [.acquire taken.2] })
  | .epoch _ | .absBarrier | .rescale _ | .suspendMarker | .interrogate
  | .collect _ =>
      let received := source.stateful.receive current.op message thisWorker
      .ok ({ current with op := received.1 }, received.2)

def call (thisWorker : WorkerId) (current : SingleIteratorOp I V)
    (call : SourceCall) :
    Except IteratorPanic
      (SingleIteratorOp I V × SourceEffects Unit V Nat Unit) :=
  match source.stateful.onSchedule current.op call.incoming with
  | .error panic => .error (.partition panic)
  | .ok (scheduled, polled) =>
      match call.input with
      | none => .ok ({ current with op := scheduled }, polled)
      | some message =>
          (source.receive { current with op := scheduled } message
            thisWorker).map fun received =>
              (received.1, { polled with
                output := polled.output ++ received.2.output
                report := received.2.report })

def run (thisWorker : WorkerId) (workerIds : IndexSet WorkerId)
    (state : Option (IndexMap Unit Unit)) (calls : List SourceCall) :
    Except IteratorPanic (SingleIteratorOp I V) :=
  match source.new thisWorker workerIds state with
  | .ok started => calls.foldlM (fun current call =>
      (source.call thisWorker current call).map Prod.fst) started
  | .error panic => .error panic

/-! ### What becomes of the part -/

def Acquires : Message Unit Unit NoTime → Prop
  | .acquire acquire => source.operatorId ∈ acquire.collection
  | _ => False

/-- The message is the part message or carries the state of the part. -/
def Arrives (message : Message Unit Unit NoTime) : Prop :=
  message.data?.isSome = true ∨ source.Acquires message

instance (message : Message Unit Unit NoTime) :
    Decidable (source.Acquires message) := by
  unfold Acquires
  split <;> infer_instance

instance (message : Message Unit Unit NoTime) :
    Decidable (source.Arrives message) :=
  inferInstanceAs (Decidable (_ ∨ _))

/-- After the part came to the worker its state comes, or it is collected and
a part message comes. -/
def ComesBack (messages : List (Message Unit Unit NoTime)) : Prop :=
  ∃ first, source.Arrives first ∧
    ((∃ again, source.Acquires again ∧ [first, again].Sublist messages) ∨
      ∃ record, [first, .collect (), .data record].Sublist messages)

omit source in
def history (state : Option (IndexMap Unit Unit)) (calls : List SourceCall) :
    List (Message Unit Unit NoTime) :=
  (state.elim [] IndexMap.keys).map
      (fun part => .data ⟨part, (), .noTime⟩) ++
    calls.filterMap SourceCall.input

end SingleIteratorSource

inductive Life where
  | unbuilt
  | here
  | away
  deriving DecidableEq

/-- What a message makes of it, unless the part is built again. -/
def Life.after (source : SingleIteratorSource I V) (life : Life)
    (message : Message Unit Unit NoTime) : Option Life :=
  match life with
  | .unbuilt => some (if source.Arrives message then .here else .unbuilt)
  | .here =>
      if source.Acquires message then none
      else some (if message = .collect () then .away else .here)
  | .away => if source.Arrives message then none else some .away

section

variable {source : SingleIteratorSource I V}
  {messages : List (Message Unit Unit NoTime)}

namespace SingleIteratorSource

omit source in
theorem pair_sublist_cons {α : Type} {left right head : α} {rest : List α} :
    [left, right].Sublist (head :: rest) ↔
      [left, right].Sublist rest ∨ left = head ∧ right ∈ rest := by
  rw [List.sublist_cons_iff]
  simp

theorem arrives_iff {message : Message Unit Unit NoTime} :
    source.Arrives message ↔
      (∃ record, message = .data record) ∨ source.Acquires message := by
  unfold Arrives
  rw [Option.isSome_iff_exists]
  simp only [Message.data?_eq_some]

theorem away_again :
    messages.foldlM (Life.after source) .away = none ↔
      ∃ again ∈ messages, source.Arrives again := by
  induction messages with
  | nil => simp
  | cons message rest ih =>
      rw [List.foldlM_cons]
      by_cases arrives : source.Arrives message <;>
        simp [Life.after, arrives, ih]

theorem here_again :
    messages.foldlM (Life.after source) .here = none ↔
      (∃ again ∈ messages, source.Acquires again) ∨
        ∃ record, [.collect (), .data record].Sublist messages := by
  induction messages with
  | nil => simp
  | cons message rest ih =>
      rw [List.foldlM_cons]
      simp only [pair_sublist_cons, List.exists_mem_cons_iff, exists_or]
      by_cases acquires : source.Acquires message
      · simp [Life.after, acquires]
      · by_cases collects : message = .collect ()
        · subst collects
          have next : (Life.after source .here (.collect ()) >>= fun life =>
              rest.foldlM (Life.after source) life) =
              rest.foldlM (Life.after source) .away := rfl
          rw [next, away_again]
          constructor
          · rintro ⟨again, member, arrived⟩
            rcases arrives_iff.mp arrived with ⟨record, rfl⟩ | acquired
            · exact .inr (.inr ⟨record, rfl, member⟩)
            · exact .inl (.inr ⟨again, member, acquired⟩)
          · rintro ((acquired | ⟨again, member, acquired⟩) |
              ⟨record, inside⟩ | ⟨record, -, member⟩)
            · exact absurd acquired acquires
            · exact ⟨again, member, .inr acquired⟩
            · exact ⟨.data record, inside.subset (by simp), .inl rfl⟩
            · exact ⟨.data record, member, .inl rfl⟩
        · have next : Life.after source .here message = some .here := by
            simp [Life.after, acquires, collects]
          have kept : ¬ Message.collect () = message := fun same =>
            collects same.symm
          rw [next, Option.bind_eq_bind, Option.bind_some, ih]
          simp [acquires, kept]

theorem unbuilt_again :
    messages.foldlM (Life.after source) .unbuilt = none ↔
      source.ComesBack messages := by
  induction messages with
  | nil => simp [ComesBack]
  | cons message rest ih =>
      rw [List.foldlM_cons]
      by_cases arrives : source.Arrives message
      · have next : Life.after source .unbuilt message = some .here := by
          simp [Life.after, arrives]
        rw [next, Option.bind_eq_bind, Option.bind_some, here_again]
        constructor
        · rintro (⟨again, member, acquired⟩ | ⟨record, inside⟩)
          · exact ⟨message, arrives, .inl ⟨again, acquired,
              (List.singleton_sublist.mpr member).cons_cons message⟩⟩
          · exact ⟨message, arrives, .inr ⟨record, inside.cons_cons message⟩⟩
        · rintro ⟨first, -, ⟨again, acquired, inside⟩ | ⟨record, inside⟩⟩
          · exact .inl ⟨again, List.singleton_sublist.mp inside.tail, acquired⟩
          · exact .inr ⟨record, inside.tail⟩
      · have next : Life.after source .unbuilt message = some .unbuilt := by
          simp [Life.after, arrives]
        rw [next, Option.bind_eq_bind, Option.bind_some, ih]
        have behind {first : Message Unit Unit NoTime}
            {later : List (Message Unit Unit NoTime)}
            (isFirst : source.Arrives first) :
            (first :: later).Sublist (message :: rest) ↔
              (first :: later).Sublist rest := by
          have other : first ≠ message := fun same => arrives (same ▸ isFirst)
          rw [List.sublist_cons_iff]
          simp [other]
        apply exists_congr
        intro first
        apply and_congr_right
        intro isFirst
        simp only [behind isFirst]

/-! ### The operator -/

/-- What the operator and its source object are like where the part is. -/
structure Matches (source : SingleIteratorSource I V) (life : Life)
    (current : SingleIteratorOp I V) : Prop where
  listed : () ∈ current.op.allPartitions
  held : () ∈ current.op.partitions ↔ life = .here
  object : current.partBuilder =
    if life = .unbuilt then some source.iter else none

variable {life : Life} {current : SingleIteratorOp I V}

/-- What a step leaves if the part is not built again, and that it panics if
it is. -/
def Agrees {α : Type} (source : SingleIteratorSource I V)
    (next : Option Life)
    (result : Except IteratorPanic (SingleIteratorOp I V × α)) : Prop :=
  match next with
  | some life => ∃ after effects, result = .ok (after, effects) ∧
      source.Matches life after
  | none => result = .error .unreachable

theorem addPartition_agrees {α : Type} (fits : source.Matches life current)
    (effects : α) :
    source.Agrees (if life = .unbuilt then some .here else none)
      ((addPartition current ()).map fun added => (added, effects)) := by
  have object := fits.object
  cases life with
  | unbuilt =>
      simp only [if_true] at object
      simp only [addPartition, buildPart, object]
      exact ⟨_, _, rfl, ⟨fits.listed, by simp, rfl⟩⟩
  | here | away =>
      simp only [reduceCtorEq, if_false] at object
      simp only [addPartition, buildPart, object]
      rfl

theorem receive_stays (fits : source.Matches life current)
    {message : Message Unit Unit NoTime} (keeps : ¬ source.Arrives message)
    (uncollected : message ≠ .collect ()) {result : Except IteratorPanic
      (SingleIteratorOp I V × SourceEffects Unit V Nat Unit)}
    {op : PartitionOp Unit Nat (SingleIteratorPartition I V)}
    {effects : SourceEffects Unit V Nat Unit}
    (isResult : result = .ok ({ current with op := op }, effects))
    (allPartitions : op.allPartitions = current.op.allPartitions)
    (partitions : () ∈ op.partitions ↔ () ∈ current.op.partitions) :
    source.Agrees (life.after source message) result := by
  have unheld : ¬ source.Acquires message := fun acquires => keeps (.inr acquires)
  have stays : life.after source message = some life := by
    cases life <;> simp [Life.after, keeps, unheld, uncollected]
  rw [stays]
  exact ⟨_, _, isResult, ⟨allPartitions ▸ fits.listed,
    partitions.trans fits.held, fits.object⟩⟩

theorem receive_agrees (fits : source.Matches life current)
    (message : Message Unit Unit NoTime) (worker : WorkerId) :
    source.Agrees (life.after source message)
      (source.receive current message worker) := by
  cases message with
  | data record =>
      have arrives : source.Arrives (.data record) := .inl rfl
      have unheld : ¬ source.Acquires (.data record) := id
      simp only [receive]
      by_cases held : () ∈ current.op.partitions
      · obtain rfl := fits.held.mp held
        rw [if_pos held]
        simp only [Life.after, unheld, if_false, reduceCtorEq]
        exact ⟨_, _, rfl, fits⟩
      · have notHere : life ≠ .here := fun isHere => held (fits.held.mpr isHere)
        have moved : life.after source (.data record) =
            if life = .unbuilt then some .here else none := by
          cases life <;> simp [Life.after, arrives] at notHere ⊢
        rw [if_neg held, moved]
        exact addPartition_agrees fits _
  | acquire acquire =>
      simp only [receive, Acquire.takeState]
      cases found : acquire.collection.get? source.operatorId with
      | none =>
          have unheld : ¬ source.Arrives (.acquire acquire) := by
            rintro (data | acquires)
            · cases data
            · exact IndexMap.get?_eq_none.mp found acquires
          exact receive_stays fits unheld (by simp) rfl rfl Iff.rfl
      | some bytes =>
          have acquires : source.Acquires (.acquire acquire) :=
            IndexMap.mem_of_get?_eq_some found
          have arrives : source.Arrives (.acquire acquire) := .inr acquires
          have moved : life.after source (.acquire acquire) =
              if life = .unbuilt then some .here else none := by
            cases life <;> simp [Life.after, arrives, acquires]
          rw [moved]
          exact addPartition_agrees fits _
  | collect key =>
      have moved : life.after source (.collect key) =
          some (if life = .here then .away else life) := by
        cases life <;> simp [Life.after, Arrives, Acquires, Message.data?]
      rw [moved]
      refine ⟨_, _, rfl, ?_, ?_, ?_⟩
      · rw [receive_allPartitions]
        exact fits.listed
      · have removed : () ∉ (source.stateful.receive current.op (.collect key)
            worker).1.partitions := by
          simp only [StatefulSource.receive]
          split
          next => simp
          next absent => exact IndexMap.get?_eq_none.mp absent
        cases life <;> simp [removed]
      · rw [fits.object]
        cases life <;> simp
  | epoch | absBarrier | rescale | suspendMarker | interrogate =>
      refine receive_stays fits ?_ ?_ rfl (receive_allPartitions _ _ _) ?_
      · simp [Arrives, Acquires, Message.data?]
      · simp
      · simp [StatefulSource.receive, StatefulSource.onRescale, stateful]

/-- A message which does not make the operator panic changes it like the
operator of a source with state, and makes it do the same. -/
theorem receive_stateful (fits : source.Matches life current)
    {message : Message Unit Unit NoTime} {worker : WorkerId}
    {next : SingleIteratorOp I V} {effects : SourceEffects Unit V Nat Unit}
    (received : source.receive current message worker = .ok (next, effects)) :
    source.stateful.receive current.op message worker = (next.op, effects) := by
  have built {added : SingleIteratorOp I V}
      (isAdded : addPartition current () = .ok added) :
      added.op = { current.op with
        partitions := current.op.partitions.insert ()
          { iter := source.iter } } := by
    have object := fits.object
    cases life with
    | unbuilt =>
        simp only [if_true] at object
        simp only [addPartition, buildPart, object, Except.ok.injEq] at isAdded
        rw [← isAdded]
    | here | away =>
        simp only [reduceCtorEq, if_false] at object
        simp [addPartition, buildPart, object] at isAdded
  cases message with
  | data record =>
      simp only [receive] at received
      simp only [StatefulSource.receive, StatefulSource.onData]
      split at received
      next held =>
        cases received
        rw [if_pos held]
      next absent =>
        rw [if_neg absent]
        cases isAdded : addPartition current record.key with
        | error panic => simp [isAdded, Except.map] at received
        | ok added =>
            simp only [isAdded, Except.map, Except.ok.injEq,
              Prod.mk.injEq] at received
            obtain ⟨rfl, rfl⟩ := received
            rw [built isAdded]
            rfl
  | acquire acquire =>
      simp only [receive] at received
      simp only [StatefulSource.receive, stateful]
      cases taken : (acquire.takeState source.operatorId).1 with
      | none =>
          simp only [taken, Except.ok.injEq, Prod.mk.injEq] at received
          obtain ⟨rfl, rfl⟩ := received
          rfl
      | some state =>
          simp only [taken] at received
          cases isAdded : addPartition current state.1 with
          | error panic => simp [isAdded, Except.map] at received
          | ok added =>
              simp only [isAdded, Except.map, Except.ok.injEq,
                Prod.mk.injEq] at received
              obtain ⟨rfl, rfl⟩ := received
              rw [built isAdded]
  | epoch | absBarrier | rescale | suspendMarker | interrogate | collect =>
      cases received
      rfl

variable (source) in
theorem pollPartitions_listed (entries : List (Unit × SingleIteratorPartition I V))
    {allPartitions : IndexMap Unit Bool} (listed : () ∈ allPartitions) :
    ∃ polled, source.stateful.pollPartitions entries allPartitions =
      .ok polled := by
  induction entries generalizing allPartitions with
  | nil => exact ⟨_, rfl⟩
  | cons entry rest ih =>
      obtain ⟨part, partition⟩ := entry
      obtain ⟨partState, found⟩ := IndexMap.exists_get?_of_mem listed
      simp only [StatefulSource.pollPartitions, found]
      have still (isFinished : Bool) : () ∈
          if isFinished then allPartitions.insert part true
          else allPartitions := by
        cases isFinished <;> simp [listed]
      obtain ⟨polled, isPolled⟩ := ih (still _)
      rw [isPolled]
      exact ⟨_, rfl⟩

theorem markFinished_listed (parts : List Unit)
    {allPartitions : IndexMap Unit Bool} (listed : () ∈ allPartitions) :
    ∃ marked, StatefulSource.markFinished parts allPartitions = .ok marked := by
  induction parts generalizing allPartitions with
  | nil => exact ⟨_, rfl⟩
  | cons part rest ih =>
      obtain ⟨partState, found⟩ := IndexMap.exists_get?_of_mem listed
      simp only [StatefulSource.markFinished, found]
      exact ih (by simp)

theorem onSchedule_agrees (fits : source.Matches life current)
    (incoming : WorkerId → List Unit) :
    ∃ next effects,
      source.stateful.onSchedule current.op incoming = .ok (next, effects) ∧
        source.Matches life { current with op := next } := by
  obtain ⟨⟨polled, output, finished⟩, isPolled⟩ :=
    source.pollPartitions_listed current.op.partitions.entries fits.listed
  have listed : () ∈ polled :=
    ((pollPartitions_marks isPolled).listed ()).mpr fits.listed
  obtain ⟨marked, isMarked⟩ :=
    markFinished_listed (StatefulSource.heard current.op incoming) listed
  have scheduled : ∃ next effects,
      source.stateful.onSchedule current.op incoming = .ok (next, effects) := by
    simp only [StatefulSource.onSchedule, isPolled, isMarked]
    exact ⟨_, _, rfl⟩
  obtain ⟨next, effects, isScheduled⟩ := scheduled
  refine ⟨next, effects, isScheduled, ?_, ?_, fits.object⟩
  · exact ((onSchedule_marks isScheduled).1.listed ()).mpr fits.listed
  · have same := (onSchedule_spec isScheduled).1 ()
    rw [← fits.held, ← IndexMap.get?_isSome, ← IndexMap.get?_isSome, same,
      Option.isSome_map]

theorem call_agrees (fits : source.Matches life current)
    (worker : WorkerId) (call : SourceCall) :
    source.Agrees
      (call.input.elim (some life) fun message => life.after source message)
      (source.call worker current call) := by
  obtain ⟨incoming, input⟩ := call
  obtain ⟨next, effects, scheduled, still⟩ := onSchedule_agrees fits incoming
  simp only [SingleIteratorSource.call, scheduled]
  cases input with
  | none => exact ⟨_, _, rfl, still⟩
  | some message =>
      have agrees := receive_agrees still message worker
      simp only [Option.elim_some]
      cases after : life.after source message with
      | none =>
          rw [after] at agrees
          rw [show source.receive _ _ _ = _ from agrees]
          rfl
      | some moved =>
          rw [after] at agrees
          obtain ⟨received, more, isReceived, remains⟩ := agrees
          rw [isReceived]
          exact ⟨_, _, rfl, remains⟩

theorem calls_agree (fits : source.Matches life current) (worker : WorkerId)
    (calls : List SourceCall) :
    calls.foldlM (fun current call =>
        (source.call worker current call).map Prod.fst) current =
      .error .unreachable ↔
    (calls.filterMap SourceCall.input).foldlM (Life.after source) life =
      none := by
  induction calls generalizing life current with
  | nil => exact iff_of_false nofun nofun
  | cons call rest ih =>
      have agrees := call_agrees fits worker call
      rw [List.foldlM_cons, List.filterMap_cons]
      cases isInput : call.input with
      | none =>
          rw [isInput] at agrees
          obtain ⟨after, effects, isCalled, remains⟩ := agrees
          rw [isCalled]
          exact ih remains
      | some message =>
          rw [isInput] at agrees
          simp only [Option.elim_some] at agrees
          rw [List.foldlM_cons]
          cases isAfter : life.after source message with
          | none =>
              rw [isAfter] at agrees
              rw [show source.call _ _ _ = _ from agrees]
              exact iff_of_true rfl rfl
          | some moved =>
              rw [isAfter] at agrees
              obtain ⟨after, effects, isCalled, remains⟩ := agrees
              rw [isCalled]
              exact ih remains

variable (source) in
theorem new_agrees (worker : WorkerId) (workers : IndexSet WorkerId)
    (state : Option (IndexMap Unit Unit)) :
    ∃ started life, source.new worker workers state = .ok started ∧
      ((state.elim [] IndexMap.keys).map fun part =>
        (.data ⟨part, (), .noTime⟩ : Message Unit Unit NoTime)).foldlM
          (Life.after source) .unbuilt = some life ∧
      source.Matches life started := by
  have fresh : source.Matches .unbuilt
      { op := source.stateful.new worker workers none
        partBuilder := some source.iter } := by
    refine ⟨?_, ?_, rfl⟩
    · simp [StatefulSource.new, stateful]
    · simp [StatefulSource.new]
  have alone (keys : List Unit) (nodup : keys.Nodup) :
      keys = [] ∨ keys = [()] := by
    cases keys with
    | nil => exact .inl rfl
    | cons first rest =>
        cases rest with
        | nil => exact .inr rfl
        | cons second others => simp at nodup
  have cases : state.elim [] IndexMap.keys = [] ∨
      state.elim [] IndexMap.keys = [()] := by
    cases state with
    | none => exact .inl rfl
    | some states => exact alone _ states.nodup
  unfold SingleIteratorSource.new
  rcases cases with none | one
  · rw [none]
    exact ⟨_, _, rfl, rfl, fresh⟩
  · rw [one]
    refine ⟨_, .here, rfl, ?_, ⟨fresh.listed, ?_, rfl⟩⟩
    · simp [Life.after, Arrives, Message.data?]
    · simp

/-- The source object is asked for a second partition exactly where the part
comes back to the worker. -/
theorem survives_iff (source : SingleIteratorSource I V)
    (thisWorker : WorkerId) (workerIds : IndexSet WorkerId)
    (state : Option (IndexMap Unit Unit)) (calls : List SourceCall) :
    source.run thisWorker workerIds state calls ≠ .error .unreachable ↔
      ¬ source.ComesBack (history state calls) := by
  obtain ⟨started, life, isNew, restored, fits⟩ :=
    source.new_agrees thisWorker workerIds state
  rw [← unbuilt_again, history, List.foldlM_append, restored, run, isNew]
  exact not_congr (calls_agree fits thisWorker calls)

end SingleIteratorSource

end

/-- The states of no part, or of one: a `fixmap` of `nil` to `nil`. -/
def partCodec : Codec (IndexMap Unit Unit) where
  toVec states := if () ∈ states then [0x81, 0xc0, 0xc0] else [0x80]
  fromSlice
    | [0x80] => some .empty
    | [0x81, 0xc0, 0xc0] => some ⟨[((), ())], by decide⟩
    | _ => none
  faithful states := by
    match states with
    | ⟨[], _⟩ => rfl
    | ⟨[((), ())], _⟩ => rfl
    | ⟨((), ()) :: ((), ()) :: _, nodup⟩ => simp at nodup

def digits : SingleIteratorSource (List UInt8) UInt8 where
  operatorId := 0
  next
    | [] => (none, [])
    | value :: rest => (some value, rest)
  iter := [3, 1, 4]

def lastWorker (_ : Unit) (worker : WorkerId) : Nat := worker

/-- Worker 0 runs, and worker 1 is about to join it. -/
def joining :
    SourceStream Unit UInt8 Nat Unit (SingleIteratorPartition (List UInt8) UInt8) :=
  { digits.stateful.startStream lastWorker two fun _ => none with
    distributors :=
      { workers := fun worker => Keyed.Worker.build (distribute lastWorker)
          worker (if worker = 0 then one else two)
        links := fun _ _ => [] } }

/-- The part is built on worker 0 and moved to worker 1 when that joins; then
worker 1 is taken away again. -/
def returnTrace : List (SourceStream.Event Unit) :=
  [.list 0 (some (.rescale ⟨two, 1⟩)), .receiveLocal 0, .partition 0,
    .list 1 (some (.rescale ⟨two, 1⟩)),
    .receiveLocal 0, .partition 0, .lifecycle 0, .lifecycle 0, .partition 0,
    .lifecycle 0, .receiveLocal 1, .partition 1, .lifecycle 1, .lifecycle 1,
    .receiveRemote 0 1, .receiveRemote 1 0, .receiveRemote 1 0,
    .receiveRemote 1 0, .receiveRemote 0 1, .lifecycle 0, .lifecycle 1,
    .partition 1, .partition 1, .partition 0,
    .list 0 (some (.rescale ⟨one, 2⟩)),
    .list 1 (some (.rescale ⟨one, 2⟩)),
    .receiveLocal 0, .partition 0, .lifecycle 0, .lifecycle 0,
    .receiveLocal 1, .partition 1, .lifecycle 1, .lifecycle 1, .partition 1,
    .lifecycle 1, .receiveRemote 0 1, .partition 0]

/-- The messages which reach the partition operator of worker 0 there make its
source object panic. -/
theorem returned_part_panics :
    let step := digits.stateful.stepStream lastWorker partCodec
    let returned := replay step joining returnTrace
    let calls := (returned.sites 0).processed.map fun message =>
      (⟨fun _ => [], some message⟩ : SourceCall)
    Follows step (fun _ _ => True) joining returnTrace ∧
      digits.run 0 ⟨[0], by decide⟩ none calls = .error .unreachable :=
  ⟨by decide +kernel, eq_error_of_failure (by decide +kernel)⟩

end Malstrom.Sources
