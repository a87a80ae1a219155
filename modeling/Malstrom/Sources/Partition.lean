import Malstrom.Data.Cut
import Malstrom.Operators.Restart
import Malstrom.Sources.Stateful

namespace Malstrom.Sources

open Data Operators Snapshot

variable {Part V T S P : Type}

/-! A partition and the records it emits, and the operator which holds the
partitions of one worker with its history. -/

inductive Call where
  /-- A poll, and the question whether the partition is finished. -/
  | schedule
  | suspend

namespace StatefulSourceImpl

variable (builder : StatefulSourceImpl Part V T S P)

def call (partition : P) : Call → P × List (V × T)
  | .schedule =>
      let polled := builder.poll partition
      ((builder.isFinished polled.2).2, polled.1.toList)
  | .suspend => (builder.suspend partition, [])

def after (partition : P) (calls : List Call) : P :=
  (answer builder.call partition calls).1

def records (partition : P) (calls : List Call) : List (V × T) :=
  (answer builder.call partition calls).2.flatten

/-- A partition which is built from a snapshot of another emits what that one
would. -/
def Continues : Prop :=
  ∀ part state calls later,
    let partition := builder.after (builder.buildPart part state) calls
    builder.records
        (builder.buildPart part (some (builder.snapshot partition))) later =
      builder.records partition later

variable {builder}

theorem after_snoc (partition : P) (calls : List Call) (last : Call) :
    builder.after partition (calls ++ [last]) =
      (builder.call (builder.after partition calls) last).1 := by
  simp [after, answer_append]

theorem records_append (partition : P) (first later : List Call) :
    builder.records partition (first ++ later) =
      builder.records partition first ++
        builder.records (builder.after partition first) later := by
  simp [records, after, answer_append]

theorem records_snoc (partition : P) (calls : List Call) (last : Call) :
    builder.records partition (calls ++ [last]) =
      builder.records partition calls ++
        (builder.call (builder.after partition calls) last).2 := by
  rw [records_append]
  simp [records]

end StatefulSourceImpl

def recordsOf [DecidableEq Part] (part : Part)
    (messages : List (DataMessage Part V T)) : List (V × T) :=
  (messages.filter fun message => decide (message.key = part)).map
    fun message => (message.value, message.timestamp)

theorem recordsOf_append [DecidableEq Part] (part : Part)
    (first second : List (DataMessage Part V T)) :
    recordsOf part (first ++ second) =
      recordsOf part first ++ recordsOf part second := by
  simp [recordsOf]

structure Site (Part V T S P : Type) where
  op : PartitionOp Part T P
  /-- Everything taken from its input so far. -/
  processed : List (Message Part Unit NoTime) := []
  /-- The partitions which were built, with the state they were built from. -/
  built : List (Part × Option S) := []
  /-- Everything sent downstream so far. -/
  output : List (Message Part V T) := []
  /-- What was persisted at each barrier. -/
  persisted : List Bytes := []

namespace StatefulSource

variable [DecidableEq Part] (source : StatefulSource Part V T S P)

def builds (op : PartitionOp Part T P) :
    Message Part Unit NoTime → List (Part × Option S)
  | .data record => if record.key ∈ op.partitions then [] else [(record.key, none)]
  | .acquire acquire => (acquire.takeState source.operatorId).1.toList.map
      fun taken => (taken.1, some (source.decode taken.2))
  | .epoch _ | .absBarrier | .rescale _ | .suspendMarker | .interrogate
  | .collect _ => []

def site (thisWorker : WorkerId) (workerIds : IndexSet WorkerId)
    (restored : Option (IndexMap Part S)) : Site Part V T S P :=
  { op := source.new thisWorker workerIds restored
    built := restored.elim [] fun states =>
      states.entries.map fun entry => (entry.1, some entry.2) }

/-- One call of the operator: it is scheduled and then takes a message of its
input if there is one. -/
def visit (codec : Codec (IndexMap Part S)) (site : Site Part V T S P)
    (incoming : WorkerId → List Part)
    (input : Option (Message Part Unit NoTime)) (thisWorker : WorkerId) :
    Except SourcePanic (Site Part V T S P × SourceEffects Part V T S) :=
  match source.onSchedule site.op incoming with
  | .error panic => .error panic
  | .ok (scheduled, polled) =>
      match input with
      | none => .ok ({ site with
          op := scheduled
          output := site.output ++ polled.output }, polled)
      | some message =>
          let received := source.receive scheduled message thisWorker
          .ok ({ op := received.1
                 processed := site.processed ++ [message]
                 built := site.built ++ source.builds scheduled message
                 output := site.output ++ polled.output ++ received.2.output
                 persisted := site.persisted ++
                  (received.2.report.persisted codec).toList },
            { polled with report := received.2.report })

end StatefulSource

section

variable [DecidableEq Part] {source : StatefulSource Part V T S P}

/-! ### What a schedule does -/

variable (source) in
def polls (entries : List (Part × P)) : List (DataMessage Part V T) :=
  entries.flatMap fun entry =>
    (source.builder.poll entry.2).1.toList.map fun record =>
      ⟨entry.1, record.1, record.2⟩

theorem pollPartitions_output {entries : List (Part × P)}
    {allPartitions marked : IndexMap Part Bool}
    {output : List (Message Part V T)} {finished : List Part}
    (polled : source.pollPartitions entries allPartitions =
      .ok (marked, output, finished)) :
    output = (polls source entries).map .data := by
  induction entries generalizing allPartitions marked output finished with
  | nil =>
      simp only [StatefulSource.pollPartitions, Except.ok.injEq,
        Prod.mk.injEq] at polled
      exact polled.2.1.symm
  | cons entry rest ih =>
      obtain ⟨part, partition⟩ := entry
      simp only [StatefulSource.pollPartitions] at polled
      split at polled
      next => cases polled
      next =>
        split at polled
        next => cases polled
        next isPolled =>
          simp only [Except.ok.injEq, Prod.mk.injEq] at polled
          rw [← polled.2.1, ih isPolled, polls, polls, List.flatMap_cons,
            List.map_append, List.map_map]
          rfl

omit [DecidableEq Part] in
theorem key_of_mem_polls {entries : List (Part × P)}
    {record : DataMessage Part V T} (polled : record ∈ polls source entries) :
    record.key ∈ entries.map Prod.fst := by
  simp only [polls, List.mem_flatMap, List.mem_map] at polled
  obtain ⟨entry, member, _, _, rfl⟩ := polled
  exact List.mem_map_of_mem member

theorem recordsOf_other {part : Part} {messages : List (DataMessage Part V T)}
    (others : ∀ message ∈ messages, message.key ≠ part) :
    recordsOf part messages = [] := by
  rw [recordsOf, List.filter_eq_nil_iff.mpr]
  · rfl
  · simpa using others

theorem recordsOf_own (part : Part) (records : List (V × T)) :
    recordsOf part (records.map fun record =>
      (⟨part, record.1, record.2⟩ : DataMessage Part V T)) = records := by
  induction records with
  | nil => rfl
  | cons record rest ih => simpa [recordsOf] using ih

theorem recordsOf_polls (part : Part) (partitions : IndexMap Part P) :
    recordsOf part (polls source partitions.entries) =
      (partitions.get? part).elim [] fun partition =>
        (source.builder.poll partition).1.toList := by
  obtain ⟨entries, nodup⟩ := partitions
  induction entries with
  | nil => rfl
  | cons entry rest ih =>
      obtain ⟨key, partition⟩ := entry
      obtain ⟨fresh, nodup⟩ := List.nodup_cons.mp nodup
      have split : polls source ((key, partition) :: rest) =
          (source.builder.poll partition).1.toList.map (fun record =>
            (⟨key, record.1, record.2⟩ : DataMessage Part V T)) ++
          polls source rest := List.flatMap_cons
      rw [split, recordsOf_append]
      by_cases same : key = part
      · subst same
        have none : recordsOf key (polls source rest) = [] := by
          refine recordsOf_other fun record polled isKey => fresh ?_
          rw [← isKey]
          exact key_of_mem_polls polled
        rw [none, recordsOf_own, List.append_nil]
        simp [IndexMap.get?]
      · have none : recordsOf part ((source.builder.poll partition).1.toList.map
            fun record =>
              (⟨key, record.1, record.2⟩ : DataMessage Part V T)) = [] := by
          refine recordsOf_other fun record polled => ?_
          obtain ⟨_, -, rfl⟩ := List.mem_map.mp polled
          exact same
        rw [none, List.nil_append, ih nodup]
        simp [IndexMap.get?, same]

omit [DecidableEq Part] in
theorem polled_output (records : List (DataMessage Part V T)) (times : List T)
    (done : Bool) :
    let output := records.map Message.data ++
      if done then times.map Message.epoch else []
    output.filterMap Message.data? = records ∧
      output.countP Message.isBarrier = 0 := by
  have polled : (records.map Message.data).filterMap Message.data? =
      records := by
    rw [List.filterMap_map]
    exact List.filterMap_some
  have epochs : ((times.map Message.epoch : List (Message Part V T)).filterMap
      Message.data?) = [] := by
    rw [List.filterMap_map]
    exact List.filterMap_none times
  cases done <;>
    simp [polled, epochs, List.countP_map, Function.comp_def, Message.isBarrier]

theorem onSchedule_spec {op next : PartitionOp Part T P}
    {incoming : WorkerId → List Part} {effects : SourceEffects Part V T S}
    (scheduled : source.onSchedule op incoming = .ok (next, effects)) :
    (∀ part, next.partitions.get? part = (op.partitions.get? part).map
        fun partition => (source.builder.call partition .schedule).1) ∧
      (∀ part, recordsOf part (effects.output.filterMap Message.data?) =
        (op.partitions.get? part).elim [] fun partition =>
          (source.builder.call partition .schedule).2) ∧
      effects.output.countP Message.isBarrier = 0 := by
  simp only [StatefulSource.onSchedule] at scheduled
  split at scheduled
  next => cases scheduled
  next output _ polled =>
    split at scheduled
    next => cases scheduled
    next =>
      simp only [Except.ok.injEq, Prod.mk.injEq] at scheduled
      obtain ⟨rfl, rfl⟩ := scheduled
      obtain ⟨sent, unmarked⟩ := polled_output
        (polls source op.partitions.entries) op.maxT.toList _
      rw [pollPartitions_output polled]
      refine ⟨fun part => IndexMap.get?_mapValues .., fun part => ?_, unmarked⟩
      rw [sent]
      exact recordsOf_polls part op.partitions

/-! ### The life of a part -/

/-- No partition was built for a part, or one was, and it emitted these
records. -/
inductive Traced (builder : StatefulSourceImpl Part V T S P) (part : Part) :
    Option P → List (Part × Option S) → List (V × T) → Prop
  | absent : Traced builder part none [] []
  | present (state : Option S) (calls : List Call) :
      Traced builder part
        (some (builder.after (builder.buildPart part state) calls))
        [(part, state)] (builder.records (builder.buildPart part state) calls)

section

omit [DecidableEq Part]

variable {builder : StatefulSourceImpl Part V T S P} {part : Part}
  {partition : Option P} {built : List (Part × Option S)}
  {records : List (V × T)}

theorem Traced.call (traced : Traced builder part partition built records)
    (next : Call) :
    Traced builder part
      (partition.map fun current => (builder.call current next).1) built
      (records ++ partition.elim [] fun current =>
        (builder.call current next).2) := by
  cases traced with
  | absent => exact .absent
  | present state calls =>
      simp only [Option.map_some, Option.elim_some]
      rw [← StatefulSourceImpl.after_snoc, ← StatefulSourceImpl.records_snoc]
      exact .present state (calls ++ [next])

theorem Traced.of_mem (traced : Traced builder part partition built records)
    {state : Option S} (member : (part, state) ∈ built) :
    built = [(part, state)] ∧ ∃ calls,
      partition = some (builder.after (builder.buildPart part state) calls) ∧
      records = builder.records (builder.buildPart part state) calls := by
  cases traced with
  | absent => cases member
  | present first calls =>
      obtain rfl := (Prod.mk.inj (List.mem_singleton.mp member)).2
      exact ⟨rfl, calls, rfl, rfl⟩

theorem Traced.of_some {current : P}
    (traced : Traced builder part (some current) built records) :
    ∃ state calls, built = [(part, state)] ∧
      current = builder.after (builder.buildPart part state) calls ∧
      records = builder.records (builder.buildPart part state) calls := by
  cases traced with
  | present state calls => exact ⟨state, calls, rfl, rfl, rfl⟩

theorem Traced.build (traced : Traced builder part none built records)
    (state : Option S) :
    Traced builder part (some (builder.buildPart part state))
      (built ++ [(part, state)]) records := by
  cases traced with
  | absent => exact .present state []

end

namespace Site

omit [DecidableEq Part] in
def records (site : Site Part V T S P) : List (DataMessage Part V T) :=
  site.output.filterMap Message.data?

omit [DecidableEq Part] in
def recordsBefore (number : Nat) (site : Site Part V T S P) :
    List (DataMessage Part V T) :=
  beforeBarrier Message.isBarrier Message.data? number site.output

def builtOf (part : Part) (site : Site Part V T S P) :
    List (Part × Option S) :=
  site.built.filter fun entry => decide (entry.1 = part)

end Site

/-- What was persisted at a barrier are the parts which were known then, each
as it was when it had emitted what was sent before the barrier. -/
structure Saved (builder : StatefulSourceImpl Part V T S P) (number : Nat)
    (states : IndexMap Part S) (site : Site Part V T S P) : Prop where
  known : ∀ part ∈ states, part ∈ site.op.partitions
  complete : ∀ record ∈
    beforeBarrier Message.isBarrier Message.data? (number + 1) site.processed,
    record.key ∈ states
  cut : ∀ part, ∃ partition built,
    (∀ entry ∈ built, entry ∈ site.built) ∧
    Traced builder part partition built
      (recordsOf part (site.recordsBefore (number + 1))) ∧
    states.get? part = partition.map builder.snapshot

/-- What holds of an operator at any time while no partition is moved. -/
structure Kept (builder : StatefulSourceImpl Part V T S P)
    (codec : Codec (IndexMap Part S)) (restored : Option (IndexMap Part S))
    (site : Site Part V T S P) : Prop where
  traced : ∀ part, Traced builder part (site.op.partitions.get? part)
    (site.builtOf part) (recordsOf part site.records)
  started : ∀ states ∈ restored, ∀ entry ∈ states.entries,
    (entry.1, some entry.2) ∈ site.built
  known : ∀ part, part ∈ site.op.partitions ↔
    (∃ states ∈ restored, part ∈ states) ∨
      ∃ record ∈ site.processed.filterMap Message.data?, record.key = part
  received : site.processed.countP Message.isBarrier = site.persisted.length
  sent : site.output.countP Message.isBarrier = site.persisted.length
  saved : ∀ number bytes, site.persisted[number]? = some bytes →
    ∃ states, bytes = codec.serializeState states ∧
      Saved builder number states site

theorem barrier_empty {K V T : Type} (message : Message K V T)
    (barrier : message.isBarrier = true) : message.data? = none := by
  cases message <;> first | rfl | cases barrier

section

variable {codec : Codec (IndexMap Part S)}
  {restored : Option (IndexMap Part S)} {site next : Site Part V T S P}

/-- Nothing which comes behind the barrier touches what was persisted. -/
theorem Saved.later {builder : StatefulSourceImpl Part V T S P} {number : Nat}
    {states : IndexMap Part S} {input : List (Message Part Unit NoTime)}
    {output : List (Message Part V T)}
    (saved : Saved builder number states site)
    (received : number < site.processed.countP Message.isBarrier)
    (sent : number < site.output.countP Message.isBarrier)
    (processed : next.processed = site.processed ++ input)
    (emitted : next.output = site.output ++ output)
    (partitions : ∀ part ∈ site.op.partitions, part ∈ next.op.partitions)
    (built : ∀ entry ∈ site.built, entry ∈ next.built) :
    Saved builder number states next where
  known part member := partitions part (saved.known part member)
  complete := by
    rw [processed, beforeBarrier_of_passed received]
    exact saved.complete
  cut part := by
    obtain ⟨partition, entries, inside, traced, isState⟩ := saved.cut part
    have same : next.recordsBefore (number + 1) =
        site.recordsBefore (number + 1) := by
      rw [Site.recordsBefore, emitted, beforeBarrier_of_passed sent]
      rfl
    exact ⟨partition, entries, fun entry member =>
      built entry (inside entry member), same ▸ traced, isState⟩

/-- Between two barriers only the partitions have to be looked at. -/
theorem Kept.later {builder : StatefulSourceImpl Part V T S P}
    {input : List (Message Part Unit NoTime)}
    {output : List (Message Part V T)} {fresh : List (Part × Option S)}
    (kept : Kept builder codec restored site)
    (processed : next.processed = site.processed ++ input)
    (emitted : next.output = site.output ++ output)
    (built : next.built = site.built ++ fresh)
    (persisted : next.persisted = site.persisted)
    (noBarrier : input.countP Message.isBarrier = 0 ∧
      output.countP Message.isBarrier = 0)
    (partitions : ∀ part, part ∈ next.op.partitions ↔
      part ∈ site.op.partitions ∨
        ∃ record ∈ input.filterMap Message.data?, record.key = part)
    (traced : ∀ part, Traced builder part (next.op.partitions.get? part)
      (next.builtOf part) (recordsOf part next.records)) :
    Kept builder codec restored next where
  traced := traced
  started states found entry member := by
    rw [built]
    exact List.mem_append_left _ (kept.started states found entry member)
  known part := by
    rw [partitions, kept.known, processed, List.filterMap_append]
    simp only [List.mem_append, or_and_right, exists_or, or_assoc]
  received := by
    rw [processed, List.countP_append, noBarrier.1, persisted]
    exact kept.received
  sent := by
    rw [emitted, List.countP_append, noBarrier.2, persisted]
    exact kept.sent
  saved number bytes found := by
    rw [persisted] at found
    have earlier := (List.getElem?_eq_some_iff.mp found).1
    obtain ⟨states, isWritten, saved⟩ := kept.saved number bytes found
    refine ⟨states, isWritten, saved.later (kept.received ▸ earlier)
      (kept.sent ▸ earlier) processed emitted
      (fun part member => (partitions part).mpr (.inl member)) ?_⟩
    rw [built]
    exact fun entry => List.mem_append_left _

end

/-! ### The steps of the operator -/

section

variable {codec : Codec (IndexMap Part S)}
  {restored : Option (IndexMap Part S)} {site next : Site Part V T S P}

theorem builtOf_entries (states : IndexMap Part S) (part : Part) :
    (states.entries.map fun entry => (entry.1, some entry.2)).filter
        (fun entry => decide (entry.1 = part)) =
      (states.get? part).elim [] fun state => [(part, some state)] := by
  obtain ⟨entries, nodup⟩ := states
  induction entries with
  | nil => rfl
  | cons entry rest ih =>
      obtain ⟨key, state⟩ := entry
      obtain ⟨fresh, later⟩ := List.nodup_cons.mp nodup
      rw [List.map_cons, List.filter_cons]
      by_cases same : key = part
      · subst same
        have absent : (⟨rest, later⟩ : IndexMap Part S).get? key = none :=
          IndexMap.get?_eq_none.mpr fresh
        rw [ih later, absent]
        simp [IndexMap.get?]
      · rw [ih later]
        simp [IndexMap.get?, same]

theorem get?_new (thisWorker : WorkerId) (workerIds : IndexSet WorkerId)
    (restored : Option (IndexMap Part S)) (part : Part) :
    (source.new thisWorker workerIds restored).partitions.get? part =
      (restored.bind fun states => states.get? part).map fun state =>
        source.builder.buildPart part (some state) := by
  cases restored with
  | none => rfl
  | some states =>
      have built := IndexMap.get?_foldl_insert
        (fun part state => source.builder.buildPart part (some state))
        IndexMap.empty states part
      simpa [StatefulSource.new] using built

theorem Kept.start (codec : Codec (IndexMap Part S)) (thisWorker : WorkerId)
    (workerIds : IndexSet WorkerId) (restored : Option (IndexMap Part S)) :
    Kept source.builder codec restored
      (source.site thisWorker workerIds restored) where
  traced part := by
    have built : (source.site thisWorker workerIds restored).builtOf part =
        (restored.bind fun states => states.get? part).elim [] fun state =>
          [(part, some state)] := by
      cases restored with
      | none => rfl
      | some states => exact builtOf_entries states part
    rw [built]
    change Traced source.builder part
      ((source.new thisWorker workerIds restored).partitions.get? part) _ []
    rw [get?_new]
    cases restored.bind fun states => states.get? part with
    | none => exact .absent
    | some state => exact .present (some state) []
  started states found entry member := by
    obtain rfl := Option.mem_def.mp found
    exact List.mem_map_of_mem member
  known part := by
    have isBuilt : (source.new thisWorker workerIds restored).partitions.get?
        part = _ := get?_new thisWorker workerIds restored part
    change part ∈ (source.new thisWorker workerIds restored).partitions ↔ _
    rw [← IndexMap.get?_isSome, isBuilt]
    cases restored with
    | none => simp [StatefulSource.site]
    | some states => simp [StatefulSource.site, IndexMap.get?_isSome]
  received := rfl
  sent := rfl
  saved number bytes found := by cases found

theorem Kept.schedule {op : PartitionOp Part T P}
    {incoming : WorkerId → List Part} {effects : SourceEffects Part V T S}
    (kept : Kept source.builder codec restored site)
    (scheduled : source.onSchedule site.op incoming = .ok (op, effects)) :
    Kept source.builder codec restored
      { site with op := op, output := site.output ++ effects.output } := by
  obtain ⟨partitions, polled, unmarked⟩ := onSchedule_spec scheduled
  refine kept.later (List.append_nil _).symm rfl (List.append_nil _).symm rfl
    ⟨rfl, unmarked⟩ (fun part => ?_) fun part => ?_
  · change part ∈ op.partitions ↔ _
    rw [← IndexMap.get?_isSome, partitions, Option.isSome_map,
      IndexMap.get?_isSome]
    simp
  · have called := (kept.traced part).call .schedule
    rw [← polled, ← partitions, ← recordsOf_append] at called
    rw [Site.records, List.filterMap_append]
    exact called

def Plain (message : Message Part Unit NoTime) : Prop :=
  message.isQuiet = true ∨ ∃ record, message = .data record

/-- What carries neither a record nor a barrier only has to change the
partitions as a call would. -/
theorem Kept.pass {builder : StatefulSourceImpl Part V T S P}
    {input : Message Part Unit NoTime} (output : List (Message Part V T))
    {op : PartitionOp Part T P} (kept : Kept builder codec restored site)
    (silent : input.data? = none ∧ input.isBarrier = false)
    (silentOutput : output.filterMap Message.data? = [] ∧
      output.countP Message.isBarrier = 0)
    (traced : ∀ part, Traced builder part (op.partitions.get? part)
      (site.builtOf part) (recordsOf part site.records))
    (partitions : ∀ part, part ∈ op.partitions ↔ part ∈ site.op.partitions) :
    Kept builder codec restored
      { site with
        op := op
        processed := site.processed ++ [input]
        output := site.output ++ output } := by
  refine kept.later rfl rfl (List.append_nil _).symm rfl
    ⟨by simp [silent.2], silentOutput.2⟩ (fun part => ?_) fun part => ?_
  · simp [partitions, silent.1]
  · rw [Site.records, List.filterMap_append, silentOutput.1, List.append_nil]
    exact traced part

theorem Kept.onData (kept : Kept source.builder codec restored site)
    (record : DataMessage Part Unit NoTime) :
    Kept source.builder codec restored
      { site with
        op := source.onData site.op record.key
        processed := site.processed ++ [.data record]
        built := site.built ++ source.builds site.op (.data record) } := by
  refine kept.later rfl (List.append_nil _).symm rfl rfl ⟨rfl, rfl⟩
    (fun part => ?_) fun part => ?_
  · simp only [StatefulSource.onData]
    split
    next present =>
      simp only [List.filterMap_cons, Message.data?, List.filterMap_nil,
        List.mem_singleton, exists_eq_left]
      exact ⟨.inl, fun either => either.elim id fun same => same ▸ present⟩
    next => simp [Message.data?, eq_comm]
  · have traced := kept.traced part
    change Traced source.builder part
      ((source.onData site.op record.key).partitions.get? part)
      ((site.built ++ source.builds site.op (.data record)).filter
        fun entry => decide (entry.1 = part)) (recordsOf part site.records)
    rw [List.filter_append]
    change Traced source.builder part _ (site.builtOf part ++ _) _
    by_cases present : record.key ∈ site.op.partitions
    · simpa [StatefulSource.onData, StatefulSource.builds, present] using traced
    · simp only [StatefulSource.onData, StatefulSource.builds, present,
        if_false, IndexMap.get?_insert]
      by_cases same : part = record.key
      · subst same
        rw [IndexMap.get?_eq_none.mpr present] at traced
        simpa using traced.build none
      · have other : ¬record.key = part := fun equal => same equal.symm
        simpa [same, other] using traced

theorem Kept.absBarrier {builder : StatefulSourceImpl Part V T S P}
    (states : IndexMap Part S) (kept : Kept builder codec restored site)
    (snapshot : ∀ part, states.get? part =
      (site.op.partitions.get? part).map builder.snapshot) :
    Kept builder codec restored
      { site with
        processed := site.processed ++ [.absBarrier]
        output := site.output ++ [.absBarrier]
        persisted := site.persisted ++ [codec.serializeState states] } where
  traced part := by
    have records : ({ site with
        processed := site.processed ++ [.absBarrier]
        output := site.output ++ [.absBarrier]
        persisted := site.persisted ++ [codec.serializeState states] } :
          Site Part V T S P).records = site.records := by
      simp [Site.records, Message.data?]
    rw [records]
    exact kept.traced part
  started := kept.started
  known part := by
    rw [List.filterMap_append]
    simpa [Message.data?] using kept.known part
  received := by simp [kept.received, Message.isBarrier]
  sent := by simp [kept.sent, Message.isBarrier]
  saved number bytes found := by
    rw [List.getElem?_append] at found
    split at found
    next earlier =>
      obtain ⟨states, isWritten, saved⟩ := kept.saved number bytes found
      exact ⟨states, isWritten, saved.later (kept.received ▸ earlier)
        (kept.sent ▸ earlier) rfl rfl (fun _ => id) fun _ => id⟩
    next later =>
      rw [List.getElem?_singleton] at found
      split at found
      next first =>
        have isLast : site.persisted.length = number := by omega
        refine ⟨states, (Option.some.inj found).symm, ?_, ?_, fun part => ?_⟩
        · intro part member
          rw [← IndexMap.get?_isSome, snapshot, Option.isSome_map] at member
          exact IndexMap.get?_isSome.mp member
        · rw [beforeBarrier_last barrier_empty rfl (kept.received.trans isLast)]
          intro record member
          rw [← IndexMap.get?_isSome, snapshot, Option.isSome_map,
            IndexMap.get?_isSome, kept.known]
          exact .inr ⟨record, member, rfl⟩
        · refine ⟨site.op.partitions.get? part, site.builtOf part,
            fun entry => List.mem_of_mem_filter, ?_, snapshot part⟩
          rw [Site.recordsBefore,
            beforeBarrier_last barrier_empty rfl (kept.sent.trans isLast)]
          exact kept.traced part
      next => cases found

theorem Kept.receive {message : Message Part Unit NoTime}
    (kept : Kept source.builder codec restored site) (plain : Plain message)
    (thisWorker : WorkerId) :
    Kept source.builder codec restored
      { op := (source.receive site.op message thisWorker).1
        processed := site.processed ++ [message]
        built := site.built ++ source.builds site.op message
        output := site.output ++
          (source.receive site.op message thisWorker).2.output
        persisted := site.persisted ++
          ((source.receive site.op message thisWorker).2.report.persisted
            codec).toList } := by
  rcases plain with quiet | ⟨record, rfl⟩
  · cases message with
    | epoch time =>
        simp only [StatefulSource.builds, Report.persisted,
          StatefulSource.receive, Option.toList_none, List.append_nil]
        simpa using kept.pass [] ⟨rfl, rfl⟩ ⟨rfl, rfl⟩ kept.traced
          fun part => Iff.rfl
    | absBarrier =>
        simp only [StatefulSource.builds, List.append_nil]
        exact kept.absBarrier _ (IndexMap.get?_of_entries_map rfl)
    | rescale rescale =>
        simp only [StatefulSource.builds, Report.persisted,
          StatefulSource.receive, Option.toList_none, List.append_nil]
        exact kept.pass [.rescale rescale] ⟨rfl, rfl⟩ ⟨rfl, rfl⟩ kept.traced
          fun part => Iff.rfl
    | suspendMarker =>
        simp only [StatefulSource.builds, Report.persisted,
          StatefulSource.receive, Option.toList_none, List.append_nil]
        refine kept.pass [.suspendMarker] ⟨rfl, rfl⟩ ⟨rfl, rfl⟩
          (fun part => ?_) fun part => IndexMap.mem_mapValues
        have called := (kept.traced part).call .suspend
        rw [IndexMap.get?_mapValues]
        cases found : site.op.partitions.get? part <;>
          simpa [found, StatefulSourceImpl.call] using called
    | data | interrogate | collect | acquire => cases quiet
  · simpa [StatefulSource.receive, Report.persisted] using kept.onData record

theorem Kept.visit {input : Option (Message Part Unit NoTime)}
    {incoming : WorkerId → List Part} {thisWorker : WorkerId}
    {effects : SourceEffects Part V T S}
    (kept : Kept source.builder codec restored site)
    (plain : ∀ message ∈ input, Plain message)
    (visited : source.visit codec site incoming input thisWorker =
      .ok (next, effects)) :
    Kept source.builder codec restored next ∧
      next.processed = site.processed ++ input.toList := by
  unfold StatefulSource.visit at visited
  split at visited
  next => cases visited
  next op polled scheduled =>
    have between := kept.schedule scheduled
    cases input with
    | none =>
        simp only [Except.ok.injEq, Prod.mk.injEq] at visited
        obtain ⟨rfl, -⟩ := visited
        exact ⟨between, (List.append_nil _).symm⟩
    | some message =>
        simp only [Except.ok.injEq, Prod.mk.injEq] at visited
        obtain ⟨rfl, -⟩ := visited
        exact ⟨between.receive (plain message rfl) thisWorker, rfl⟩

end

end

end Malstrom.Sources
