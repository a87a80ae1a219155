import Malstrom.Channels.Epochs
import Malstrom.Data.Growing
import Malstrom.Operators.GenerateEpochs

namespace Malstrom.Operators

open Data Channels Snapshot

variable {K V VO T G : Type}

/-! The stream of records in time and the stream of late ones, which the mixed
stream of generated epochs is split into. -/

inductive Unreachable where
  | ontime
  | late
  deriving DecidableEq

/-- Is this message sent to a receiver?  System messages are sent to all. -/
def sentTo (partitioner : DataMessage K V T → Nat → Bool) (receiver : Nat) :
    Message K V T → Bool
  | .data record => partitioner record receiver
  | _ => true

def split (partitioner : DataMessage K V T → Nat → Bool)
    (messages : List (Message K V T)) (receiver : Nat) :
    List (Message K V T) :=
  messages.filter (sentTo partitioner receiver)

def map (mapper : V → Except Unreachable VO) :
    Message K V T → Except Unreachable (Message K VO T)
  | .data record =>
      match mapper record.value with
      | .ok value => .ok (.data ⟨record.key, value, record.timestamp⟩)
      | .error reached => .error reached
  | .epoch time => .ok (.epoch time)
  | .absBarrier => .ok .absBarrier
  | .rescale message => .ok (.rescale message)
  | .suspendMarker => .ok .suspendMarker
  | .interrogate => .ok .interrogate
  | .collect key => .ok (.collect key)
  | .acquire acquire => .ok (.acquire acquire)

def timeSplit (record : DataMessage K (OnTimeLate V) T) (receiver : Nat) :
    Bool :=
  match record.value with
  | .onTime _ => receiver == 0
  | .late _ => receiver == 1

def ontimeValue : OnTimeLate V → Except Unreachable V
  | .onTime value => .ok value
  | .late _ => .error .ontime

def lateValue : OnTimeLate V → Except Unreachable V
  | .onTime _ => .error .late
  | .late value => .ok value

def splitMixedStream (mixed : List (Message K (OnTimeLate V) T)) :
    Except Unreachable (List (Message K V T) × List (Message K V T)) :=
  match (split timeSplit mixed 0).mapM (map ontimeValue),
      (split timeSplit mixed 1).mapM (map lateValue) with
  | .ok ontime, .ok late => .ok (ontime, late)
  | .error reached, _ => .error reached
  | _, .error reached => .error reached

section

variable [LT T] [DecidableLT T]

def mixedStream (gen : Generator K V T G) (codec : Codec T)
    (start : EpochState T G) (messages : List (Message K V T)) :
    List (Message K (OnTimeLate V) T) :=
  (answer (generateEpochs gen codec) start messages).2.flatMap Prod.fst

def generatedStreams (gen : Generator K V T G) (codec : Codec T)
    (start : EpochState T G) (messages : List (Message K V T)) :
    Except Unreachable (List (Message K V T) × List (Message K V T)) :=
  splitMixedStream (mixedStream gen codec start messages)

end

/-! ### Splitting -/

/-- A record with what was made of it: true if it is in time. -/
def verdict? : Message K (OnTimeLate V) T → Option (DataMessage K V T × Bool)
  | .data ⟨key, .onTime value, timestamp⟩ => some (⟨key, value, timestamp⟩, true)
  | .data ⟨key, .late value, timestamp⟩ => some (⟨key, value, timestamp⟩, false)
  | _ => none

def recordsIn (onTime : Bool) (classified : List (DataMessage K V T × Bool)) :
    List (DataMessage K V T) :=
  (classified.filter fun verdict => verdict.2 == onTime).map Prod.fst

def branch (onTime : Bool) (mixed : List (Message K (OnTimeLate V) T)) :
    List (Message K V T) :=
  (mixed.filter fun message =>
    (verdict? message).all fun verdict => verdict.2 == onTime).map
      (OnTimeLate.unwrap id id)

theorem mapM_eq_ok {mapper : V → Except Unreachable VO}
    {unwrap : Message K V T → Message K VO T} {messages : List (Message K V T)}
    (maps : ∀ message ∈ messages, map mapper message = .ok (unwrap message)) :
    messages.mapM (map mapper) = .ok (messages.map unwrap) := by
  induction messages with
  | nil => rfl
  | cons message rest induction =>
      rw [List.mapM_cons, maps message (.head _),
        induction fun later member => maps later (.tail _ member)]
      rfl

theorem sentTo_timeSplit (onTime : Bool)
    (message : Message K (OnTimeLate V) T) :
    sentTo timeSplit (if onTime then 0 else 1) message =
      (verdict? message).all fun verdict => verdict.2 == onTime := by
  cases message with
  | data record =>
      obtain ⟨key, value, timestamp⟩ := record
      cases value with
      | onTime value => cases onTime <;> rfl
      | late value => cases onTime <;> rfl
  | epoch | absBarrier | rescale | suspendMarker | interrogate | collect
  | acquire => rfl

theorem split_timeSplit (onTime : Bool)
    (mixed : List (Message K (OnTimeLate V) T)) :
    split timeSplit mixed (if onTime then 0 else 1) =
      mixed.filter fun message =>
        (verdict? message).all fun verdict => verdict.2 == onTime :=
  List.filter_congr fun message _ => sentTo_timeSplit onTime message

theorem splitMixedStream_ok (mixed : List (Message K (OnTimeLate V) T)) :
    splitMixedStream mixed = .ok (branch true mixed, branch false mixed) := by
  have ontime : (split timeSplit mixed 0).mapM (map ontimeValue) =
      .ok (branch true mixed) := by
    rw [show split timeSplit mixed 0 = _ from split_timeSplit true mixed]
    apply mapM_eq_ok
    intro message member
    have right := List.of_mem_filter member
    rcases message with ⟨key, value | value, timestamp⟩ | _ | _ | _ | _ | _ | _ | _
    all_goals first | rfl | cases right
  have late : (split timeSplit mixed 1).mapM (map lateValue) =
      .ok (branch false mixed) := by
    rw [show split timeSplit mixed 1 = _ from split_timeSplit false mixed]
    apply mapM_eq_ok
    intro message member
    have right := List.of_mem_filter member
    rcases message with ⟨key, value | value, timestamp⟩ | _ | _ | _ | _ | _ | _ | _
    all_goals first | rfl | cases right
  simp only [splitMixedStream, ontime, late]

section

variable {onTime : Bool} {mixed more : List (Message K (OnTimeLate V) T)}

theorem branch_append :
    branch onTime (mixed ++ more) = branch onTime mixed ++ branch onTime more := by
  simp [branch]

theorem epochs_branch (onTime : Bool)
    (mixed : List (Message K (OnTimeLate V) T)) :
    (branch onTime mixed).filterMap Message.epoch? =
      mixed.filterMap Message.epoch? := by
  induction mixed with
  | nil => rfl
  | cons message rest induction =>
      rw [← List.singleton_append, branch_append, List.filterMap_append,
        List.filterMap_append, induction]
      congr 1
      rcases message with ⟨key, value | value, timestamp⟩ | _ | _ | _ | _ | _ | _ | _
      all_goals cases onTime <;> rfl

theorem epoch_mem_branch (onTime : Bool)
    (mixed : List (Message K (OnTimeLate V) T)) (epoch : T) :
    .epoch epoch ∈ branch onTime mixed ↔
      epoch ∈ mixed.filterMap Message.epoch? := by
  rw [← epochs_branch onTime, List.mem_filterMap]
  simp only [Message.epoch?_eq_some, exists_eq_right]

theorem data_branch (onTime : Bool)
    (mixed : List (Message K (OnTimeLate V) T)) :
    (branch onTime mixed).filterMap Message.data? =
      recordsIn onTime (mixed.filterMap verdict?) := by
  unfold recordsIn
  induction mixed with
  | nil => rfl
  | cons message rest induction =>
      rw [← List.singleton_append, branch_append, List.filterMap_append,
        List.filterMap_append, List.filter_append, List.map_append, induction]
      congr 1
      rcases message with ⟨key, value | value, timestamp⟩ | _ | _ | _ | _ | _ | _ | _
      all_goals cases onTime <;> rfl

end

/-! ### The operator -/

def classify (verdict : List (Message K V T) → DataMessage K V T → Bool) :
    List (Message K V T) → List (Message K V T) →
      List (DataMessage K V T × Bool)
  | _, [] => []
  | before, message :: rest =>
      (message.data?.toList.map fun record => (record, verdict before record)) ++
        classify verdict (before ++ [message]) rest

theorem classify_push
    {verdict : List (Message K V T) → DataMessage K V T → Bool}
    (before messages : List (Message K V T)) (message : Message K V T) :
    classify verdict before (messages ++ [message]) =
      classify verdict before messages ++
        message.data?.toList.map fun record =>
          (record, verdict (before ++ messages) record) := by
  induction messages generalizing before with
  | nil => simp [classify]
  | cons first rest induction =>
      simp only [List.cons_append, classify, induction, List.append_assoc,
        List.nil_append]

theorem classify_records
    (verdict : List (Message K V T) → DataMessage K V T → Bool)
    (before messages : List (Message K V T)) :
    (classify verdict before messages).map Prod.fst =
      messages.filterMap Message.data? := by
  induction messages generalizing before with
  | nil => rfl
  | cons message rest induction =>
      rw [classify, List.map_append, induction, List.filterMap_cons]
      cases message.data? <;> rfl

section

variable [LinearOrder T] {gen : Generator K V T G} {codec : Codec T}
  {start : EpochState T G}

theorem mixedStream_push (messages : List (Message K V T))
    (message : Message K V T) :
    mixedStream gen codec start (messages ++ [message]) =
      mixedStream gen codec start messages ++
        (generateEpochs gen codec
          (answer (generateEpochs gen codec) start messages).1 message).2.1 := by
  simp [mixedStream, answer_append]

def lastIssued (gen : Generator K V T G) (codec : Codec T)
    (start : EpochState T G) (messages : List (Message K V T)) : Option T :=
  (lastEpoch (mixedStream gen codec start messages)).or start.prevEpoch

/-- A record is in time if it is ahead of the epoch issued last. -/
def inTime (gen : Generator K V T G) (codec : Codec T) (start : EpochState T G)
    (before : List (Message K V T)) (record : DataMessage K V T) : Bool :=
  (lastIssued gen codec start before).all fun last =>
    decide (last < record.timestamp)

/-! One message: what the operator passes on comes before the epoch it may
issue. -/

def proposal (gen : Generator K V T G) (current : EpochState T G) :
    Message K V T → Option T
  | .data record => (gen current.memory record current.prevEpoch).2
  | .epoch time => some time
  | _ => none

def issued (gen : Generator K V T G) (current : EpochState T G)
    (message : Message K V T) : Option T :=
  (proposal gen current message).filter fun epoch =>
    current.prevEpoch.all fun prev => decide (prev < epoch)

theorem issued_eq_some {message : Message K V T} {current : EpochState T G}
    {epoch : T} :
    issued gen current message = some epoch ↔
      proposal gen current message = some epoch ∧
        ∀ prev ∈ current.prevEpoch, prev < epoch := by
  unfold issued
  rw [Option.filter_eq_some_iff, Option.all_eq_true]
  simp only [decide_eq_true_eq]
  rfl

theorem issue_eq (proposed prev : Option T) :
    issue (K := K) (V := V) proposed prev =
      let issued := proposed.filter fun epoch =>
        prev.all fun last => decide (last < epoch)
      (issued.or prev, issued.toList.map .epoch) := by
  cases proposed with
  | none => cases prev <;> rfl
  | some epoch =>
      cases prev with
      | none => rfl
      | some last =>
          by_cases above : last < epoch
          · simp [issue, Option.filter, above]
          · simp [issue, Option.filter, above]

theorem generateEpochs_spec (gen : Generator K V T G) (codec : Codec T)
    (current : EpochState T G)
    (message : Message K V T) :
    ∃ passed : List (Message K (OnTimeLate V) T),
      (generateEpochs gen codec current message).2.1 =
        passed ++ (issued gen current message).toList.map .epoch ∧
      passed.filterMap Message.epoch? = [] ∧
      (passed.filterMap verdict? = message.data?.toList.map fun record =>
        (record, current.prevEpoch.all fun prev =>
          decide (prev < record.timestamp))) ∧
      (generateEpochs gen codec current message).1.prevEpoch =
        (issued gen current message).or current.prevEpoch := by
  cases message with
  | data record =>
      refine ⟨[handleMaybeLateMsg current.prevEpoch record], ?_, rfl, ?_, ?_⟩
      · simp only [generateEpochs, issue_eq]
        rfl
      · cases isPrev : current.prevEpoch with
        | none => rfl
        | some prev =>
            by_cases above : prev < record.timestamp
            · simp [handleMaybeLateMsg, verdict?, above, Message.data?]
            · simp [handleMaybeLateMsg, verdict?, above, Message.data?]
      · simp only [generateEpochs, issue_eq]
        rfl
  | epoch time =>
      refine ⟨[], ?_, rfl, rfl, ?_⟩
      · simp only [generateEpochs, issued, proposal, Option.filter]
        split <;> rfl
      · simp only [generateEpochs, issued, proposal, Option.filter]
        split <;> rfl
  | absBarrier => exact ⟨[.absBarrier], rfl, rfl, rfl, rfl⟩
  | rescale rescale => exact ⟨[.rescale rescale], rfl, rfl, rfl, rfl⟩
  | suspendMarker => exact ⟨[.suspendMarker], rfl, rfl, rfl, rfl⟩
  | interrogate => exact ⟨[.interrogate], rfl, rfl, rfl, rfl⟩
  | collect key => exact ⟨[.collect key], rfl, rfl, rfl, rfl⟩
  | acquire acquire => exact ⟨[.acquire acquire], rfl, rfl, rfl, rfl⟩

/-! ### All messages -/

abbrev stateAfter (gen : Generator K V T G) (codec : Codec T)
    (start : EpochState T G) (messages : List (Message K V T)) :
    EpochState T G :=
  (answer (generateEpochs gen codec) start messages).1

theorem stateAfter_push (messages : List (Message K V T))
    (message : Message K V T) :
    stateAfter gen codec start (messages ++ [message]) =
      (generateEpochs gen codec (stateAfter gen codec start messages)
        message).1 := by
  simp [stateAfter, answer_append]

theorem epochs_push (messages : List (Message K V T))
    (message : Message K V T) :
    (mixedStream gen codec start (messages ++ [message])).filterMap
        Message.epoch? =
      (mixedStream gen codec start messages).filterMap Message.epoch? ++
        (issued gen (stateAfter gen codec start messages) message).toList := by
  obtain ⟨passed, output, noEpoch, -, -⟩ := generateEpochs_spec gen
    codec (stateAfter gen codec start messages) message
  rw [mixedStream_push, output, List.filterMap_append, List.filterMap_append,
    noEpoch, List.nil_append]
  congr 1
  cases issued gen (stateAfter gen codec start messages) message <;> rfl

theorem prevEpoch_eq_lastIssued (messages : List (Message K V T)) :
    (stateAfter gen codec start messages).prevEpoch =
      lastIssued gen codec start messages := by
  induction messages using List.reverseRecOn with
  | nil => rfl
  | append_singleton messages message induction =>
      obtain ⟨passed, -, -, -, next⟩ := generateEpochs_spec gen codec
        (stateAfter gen codec start messages) message
      rw [stateAfter_push, next, induction]
      unfold lastIssued lastEpoch
      rw [epochs_push]
      cases issued gen (stateAfter gen codec start messages) message with
      | none => simp
      | some epoch => simp

theorem lastIssued_push (messages : List (Message K V T))
    (message : Message K V T) :
    lastIssued gen codec start (messages ++ [message]) =
      (issued gen (stateAfter gen codec start messages) message).or
        (lastIssued gen codec start messages) := by
  obtain ⟨passed, -, -, -, next⟩ := generateEpochs_spec gen codec
    (stateAfter gen codec start messages) message
  rw [← prevEpoch_eq_lastIssued, ← prevEpoch_eq_lastIssued, stateAfter_push]
  exact next

theorem lastIssued_lt_issued {messages : List (Message K V T)}
    {message : Message K V T} {epoch last : T}
    (isIssued : issued gen (stateAfter gen codec start messages) message =
      some epoch)
    (isLast : lastIssued gen codec start messages = some last) :
    last < epoch := by
  rw [← prevEpoch_eq_lastIssued] at isLast
  exact (issued_eq_some.mp isIssued).2 last isLast

theorem epochs_increase (messages : List (Message K V T)) :
    ((mixedStream gen codec start messages).filterMap
      Message.epoch?).Pairwise (· < ·) := by
  induction messages using List.reverseRecOn with
  | nil => exact List.Pairwise.nil
  | append_singleton messages message induction =>
      rw [epochs_push]
      cases isIssued : issued gen (stateAfter gen codec start messages)
          message with
      | none => simpa using induction
      | some epoch =>
          refine pairwise_push.mpr ⟨induction, fun last isLast => ?_⟩
          apply lastIssued_lt_issued isIssued
          exact Option.or_eq_some_iff.mpr (.inl isLast)

theorem restored_le_lastIssued (gen : Generator K V T G) (codec : Codec T)
    (messages : List (Message K V T)) {restored : T}
    (isRestored : start.prevEpoch = some restored) :
    ∃ last, lastIssued gen codec start messages = some last ∧
      restored ≤ last := by
  induction messages using List.reverseRecOn with
  | nil => exact ⟨restored, isRestored, le_refl restored⟩
  | append_singleton messages message induction =>
      obtain ⟨last, isLast, below⟩ := induction
      rw [lastIssued_push]
      cases isIssued : issued gen (stateAfter gen codec start messages)
          message with
      | none => exact ⟨last, isLast, below⟩
      | some epoch =>
          exact ⟨epoch, rfl,
            below.trans (lastIssued_lt_issued isIssued isLast).le⟩

/-- No issued epoch is ahead of the last one, and all are ahead of the
restored one. -/
theorem epoch_le_lastIssued {messages : List (Message K V T)} {epoch : T}
    (member : epoch ∈ (mixedStream gen codec start messages).filterMap
      Message.epoch?) :
    (∃ last, lastIssued gen codec start messages = some last ∧ epoch ≤ last) ∧
      ∀ restored ∈ start.prevEpoch, restored < epoch := by
  induction messages using List.reverseRecOn with
  | nil => cases member
  | append_singleton messages message induction =>
      rw [epochs_push] at member
      rw [lastIssued_push]
      rcases List.mem_append.mp member with earlier | now
      · obtain ⟨⟨last, isLast, below⟩, above⟩ := induction earlier
        refine ⟨?_, above⟩
        cases isIssued : issued gen (stateAfter gen codec start messages)
            message with
        | none => exact ⟨last, isLast, below⟩
        | some later =>
            exact ⟨later, rfl,
              below.trans (lastIssued_lt_issued isIssued isLast).le⟩
      · have isIssued := Option.mem_toList.mp now
        refine ⟨⟨epoch, by rw [isIssued, Option.some_or], le_refl epoch⟩, ?_⟩
        intro restored isRestored
        obtain ⟨last, isLast, below⟩ := restored_le_lastIssued gen codec
          messages isRestored
        exact below.trans_lt (lastIssued_lt_issued isIssued isLast)

theorem verdicts_mixedStream (messages : List (Message K V T)) :
    (mixedStream gen codec start messages).filterMap verdict? =
      classify (inTime gen codec start) [] messages := by
  induction messages using List.reverseRecOn with
  | nil => rfl
  | append_singleton messages message induction =>
      obtain ⟨passed, output, -, verdicts, -⟩ := generateEpochs_spec gen codec
        (stateAfter gen codec start messages) message
      have silent : ((issued gen (stateAfter gen codec start messages)
          message).toList.map (.epoch : T → Message K (OnTimeLate V) T)).filterMap
            verdict? = [] := by
        cases issued gen (stateAfter gen codec start messages) message <;> rfl
      rw [mixedStream_push, output, classify_push, List.filterMap_append,
        List.filterMap_append, silent, List.append_nil, verdicts, induction,
        prevEpoch_eq_lastIssued]
      rfl

/-! ### What the epochs of the two streams promise -/

theorem promise_append {first more : List (Message K V T)} :
    Promise (first ++ more) ↔ Promise first ∧ Promise more ∧
      ∀ epoch ∈ first.filterMap Message.epoch?,
        ∀ record ∈ more.filterMap Message.data?, epoch < record.timestamp := by
  unfold Promise
  rw [List.pairwise_append]
  refine and_congr Iff.rfl (and_congr Iff.rfl ?_)
  constructor
  · intro behind epoch isEpoch record isRecord
    obtain ⟨earlier, inFirst, found⟩ := List.mem_filterMap.mp isEpoch
    obtain ⟨later, inMore, found'⟩ := List.mem_filterMap.mp isRecord
    exact behind earlier inFirst later inMore epoch record
      (Message.epoch?_eq_some.mp found) (Message.data?_eq_some.mp found')
  · rintro ahead earlier inFirst later inMore epoch record rfl rfl
    exact ahead epoch (List.mem_filterMap.mpr ⟨_, inFirst, rfl⟩) record
      (List.mem_filterMap.mpr ⟨_, inMore, rfl⟩)

theorem promise_silent {messages : List (Message K V T)}
    (silent : messages.filterMap Message.epoch? = [] ∨
      messages.filterMap Message.data? = []) : Promise messages := by
  apply List.pairwise_of_forall_mem_list
  rintro earlier inFirst later inMore epoch record rfl rfl
  rcases silent with noEpoch | noRecord
  · cases List.filterMap_eq_nil_iff.mp noEpoch _ inFirst
  · cases List.filterMap_eq_nil_iff.mp noRecord _ inMore

theorem promise_branch_push (onTime : Bool) (messages : List (Message K V T))
    (message : Message K V T) :
    Promise (branch onTime
        (mixedStream gen codec start (messages ++ [message]))) ↔
      Promise (branch onTime (mixedStream gen codec start messages)) ∧
        ∀ record ∈ message.data?,
          inTime gen codec start messages record = onTime →
          ∀ epoch ∈ (mixedStream gen codec start messages).filterMap
            Message.epoch?, epoch < record.timestamp := by
  obtain ⟨passed, output, noEpoch, verdicts, -⟩ := generateEpochs_spec gen codec
    (stateAfter gen codec start messages) message
  have silent : ((issued gen (stateAfter gen codec start messages)
      message).toList.map (.epoch : T → Message K (OnTimeLate V) T)).filterMap
        verdict? = [] := by
    cases issued gen (stateAfter gen codec start messages) message <;> rfl
  have own : Promise (branch onTime (passed ++
      (issued gen (stateAfter gen codec start messages)
        message).toList.map .epoch)) := by
    rw [branch_append, promise_append]
    refine ⟨promise_silent (.inl ?_), promise_silent (.inr ?_), ?_⟩
    · rw [epochs_branch, noEpoch]
    · rw [data_branch, silent]
      rfl
    · rw [epochs_branch, noEpoch]
      nofun
  rw [mixedStream_push, output, branch_append, promise_append, epochs_branch,
    data_branch, List.filterMap_append, silent, List.append_nil, verdicts,
    prevEpoch_eq_lastIssued]
  refine and_congr_right fun _ => (and_iff_right own).trans ?_
  cases message.data? with
  | none => simp [recordsIn]
  | some record =>
      change (∀ epoch ∈ _, ∀ kept ∈ recordsIn onTime
        [(record, inTime gen codec start messages record)], _) ↔ _
      by_cases right : inTime gen codec start messages record = onTime
      · simp [recordsIn, right]
      · simp [recordsIn, right]

theorem promise_onTime (messages : List (Message K V T)) :
    Promise (branch true (mixedStream gen codec start messages)) := by
  induction messages using List.reverseRecOn with
  | nil => exact List.Pairwise.nil
  | append_singleton messages message induction =>
      refine (promise_branch_push true messages message).mpr ⟨induction, ?_⟩
      intro record isRecord inTime epoch member
      obtain ⟨⟨last, isLast, below⟩, -⟩ := epoch_le_lastIssued member
      have ahead : last < record.timestamp := by
        simpa [Operators.inTime, isLast] using inTime
      exact below.trans_lt ahead

/-- Every record goes to one of the two streams, in the order of the input:
to the on-time stream if it is ahead of the epoch issued last.  No record there
comes behind an epoch it is not ahead of. -/
theorem on_time_stream (gen : Generator K V T G) (codec : Codec T)
    (start : EpochState T G) (messages : List (Message K V T)) :
    ∃ ontime late,
      generatedStreams gen codec start messages = .ok (ontime, late) ∧
      (ontime.filterMap Message.epoch?).Pairwise (· < ·) ∧
      (∀ epoch, .epoch epoch ∈ ontime →
        ∀ restored ∈ start.prevEpoch, restored < epoch) ∧
      (classify (inTime gen codec start) [] messages).map Prod.fst =
        messages.filterMap Message.data? ∧
      ontime.filterMap Message.data? =
        recordsIn true (classify (inTime gen codec start) [] messages) ∧
      late.filterMap Message.data? =
        recordsIn false (classify (inTime gen codec start) [] messages) ∧
      Promise ontime := by
  refine ⟨_, _, splitMixedStream_ok _, ?_, ?_, ?_, ?_, ?_, promise_onTime _⟩
  · rw [epochs_branch]
    exact epochs_increase messages
  · intro epoch member
    rw [epoch_mem_branch] at member
    exact (epoch_le_lastIssued member).2
  · exact classify_records _ [] messages
  · rw [data_branch, verdicts_mixedStream]
  · rw [data_branch, verdicts_mixedStream]

/-! ### The late stream -/

/-- A record which comes behind an issued epoch is ahead of the last one. -/
def Timely (gen : Generator K V T G) (codec : Codec T) (start : EpochState T G)
    (before : List (Message K V T)) (message : Message K V T) : Prop :=
  (stateAfter gen codec start before).prevEpoch = start.prevEpoch ∨
    ∀ record ∈ message.data?,
      ∀ prev ∈ (stateAfter gen codec start before).prevEpoch,
        prev < record.timestamp

/-- Nothing but the final time is proposed as a later epoch. -/
def ProposesFinal (gen : Generator K V T G) (codec : Codec T)
    (start : EpochState T G) (maxTime : T) (before : List (Message K V T))
    (message : Message K V T) : Prop :=
  ∀ epoch ∈ proposal gen (stateAfter gen codec start before) message,
    (∀ prev ∈ (stateAfter gen codec start before).prevEpoch, prev < epoch) →
      epoch = maxTime

theorem epochs_eq_nil_iff (messages : List (Message K V T)) :
    (mixedStream gen codec start messages).filterMap Message.epoch? = [] ↔
      (stateAfter gen codec start messages).prevEpoch = start.prevEpoch := by
  rw [prevEpoch_eq_lastIssued]
  constructor
  · intro none
    simp [lastIssued, lastEpoch, none]
  · intro same
    rw [List.eq_nil_iff_forall_not_mem]
    intro epoch member
    obtain ⟨⟨last, isLast, below⟩, above⟩ := epoch_le_lastIssued member
    exact absurd (above last (same ▸ isLast)) (not_lt.mpr below)

theorem promise_late_iff (messages : List (Message K V T)) :
    Promise (branch false (mixedStream gen codec start messages)) ↔
      AtEvery (Timely gen codec start) messages := by
  induction messages using List.reverseRecOn with
  | nil => exact iff_of_true List.Pairwise.nil atEvery_nil
  | append_singleton messages message induction =>
      rw [promise_branch_push, atEvery_push, induction]
      refine and_congr_right fun _ => ?_
      unfold Timely
      rw [← epochs_eq_nil_iff, prevEpoch_eq_lastIssued]
      constructor
      · intro ahead
        cases isLast : lastEpoch (mixedStream gen codec start messages) with
        | none => exact .inl (List.getLast?_eq_none_iff.mp isLast)
        | some last =>
            refine .inr fun record isRecord prev isPrev => ?_
            have isPrev : last = prev := by
              simpa [lastIssued, isLast] using isPrev
            obtain rfl := isPrev
            have issued := List.mem_of_getLast? isLast
            by_contra behind
            refine behind (ahead record isRecord ?_ last issued)
            simp [inTime, lastIssued, isLast, behind]
      · rintro (none | ahead) record isRecord late epoch member
        · rw [none] at member
          cases member
        · have onTime : inTime gen codec start messages record = true := by
            unfold inTime
            rw [Option.all_eq_true]
            intro last isLast
            exact decide_eq_true (ahead record isRecord last isLast)
          rw [onTime] at late
          cases late

theorem final_epochs_iff (messages : List (Message K V T)) (maxTime : T) :
    (∀ epoch ∈ (mixedStream gen codec start messages).filterMap
      Message.epoch?, epoch = maxTime) ↔
      AtEvery (ProposesFinal gen codec start maxTime) messages := by
  induction messages using List.reverseRecOn with
  | nil => exact iff_of_true nofun atEvery_nil
  | append_singleton messages message induction =>
      rw [epochs_push, atEvery_push, List.forall_mem_append, induction]
      refine and_congr_right fun _ => ?_
      unfold ProposesFinal
      simp only [Option.mem_toList, issued_eq_some, and_imp]
      rfl

/-- The late stream gets all epochs, too. -/
theorem late_stream_iff (gen : Generator K V T G) (codec : Codec T)
    (start : EpochState T G) (maxTime : T) (messages : List (Message K V T)) :
    ∃ ontime late,
      generatedStreams gen codec start messages = .ok (ontime, late) ∧
      (Promise late ↔ AtEvery (Timely gen codec start) messages) ∧
      ((∀ epoch, .epoch epoch ∈ late → epoch = maxTime) ↔
        AtEvery (ProposesFinal gen codec start maxTime) messages) := by
  refine ⟨_, _, splitMixedStream_ok _, promise_late_iff messages, ?_⟩
  rw [← final_epochs_iff]
  simp only [epoch_mem_branch]

end

/-- A late record behind the epoch it is late for, which is not the last. -/
theorem late_behind_epoch :
    ∃ ontime late : List (Message Unit Unit UInt8),
      generatedStreams everyTimestamp byteCodec ⟨none, ()⟩
          [.data ⟨(), (), 7⟩, .data ⟨(), (), 5⟩] = .ok (ontime, late) ∧
        late = [.epoch 7, .data ⟨(), (), 5⟩] ∧ ¬ Promise late ∧
          ¬ ∀ epoch, .epoch epoch ∈ late → epoch = 255 := by
  refine ⟨[.data ⟨(), (), 7⟩, .epoch 7], _, rfl, rfl, ?_, ?_⟩
  · intro promise
    have ahead : (7 : UInt8) < 5 :=
      List.rel_of_pairwise_cons promise (List.mem_singleton_self _) 7 _ rfl rfl
    exact absurd ahead (by decide)
  · intro final
    exact absurd (final 7 (.head _)) (by decide)

end Malstrom.Operators
