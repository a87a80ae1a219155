import Mathlib.Algebra.Group.Nat.Defs
import Malstrom.Operators.OnTime

namespace Malstrom.Operators

open Data Channels Snapshot

variable {K V T B : Type}

/-! Epochs which keep a bound below the greatest timestamp. -/

inductive ArithmeticPanic where
  /-- Attempt to subtract with overflow. -/
  | overflow
  deriving DecidableEq

section

variable [LT T] [DecidableLT T]

/-- A later epoch is proposed if there is an earlier one. -/
def later (lastEpoch : Option T) (newEpoch : T) : Option T :=
  match lastEpoch with
  | some le => if le < newEpoch then some newEpoch else none
  | none => some newEpoch

/-- `sub` is the subtraction of the timestamp type. -/
def limitOutOfOrderness (sub : T → B → Except ArithmeticPanic T) (bound : B)
    (record : DataMessage K V T) (lastEpoch : Option T) :
    Except ArithmeticPanic (Option T) :=
  match sub record.timestamp bound with
  | .error panic => .error panic
  | .ok newEpoch => .ok (later lastEpoch newEpoch)

/-- A message when the function which generates epochs may panic. -/
def tryGenerateEpochs
    (gen : DataMessage K V T → Option T → Except ArithmeticPanic (Option T))
    (codec : Codec T) (current : EpochState T Unit) (message : Message K V T) :
    Except ArithmeticPanic
      (EpochState T Unit × List (Message K (OnTimeLate V) T) × Option Bytes) :=
  match message with
  | .data record =>
      match gen record current.prevEpoch with
      | .error panic => .error panic
      | .ok generated =>
          .ok (generateEpochs (fun memory _ _ => (memory, generated)) codec
            current message)
  | _ => .ok (generateEpochs (fun memory _ _ => (memory, none)) codec current
      message)

def tryMixedStream
    (gen : DataMessage K V T → Option T → Except ArithmeticPanic (Option T))
    (codec : Codec T) : EpochState T Unit → List (Message K V T) →
      Except ArithmeticPanic (List (Message K (OnTimeLate V) T))
  | _, [] => .ok []
  | current, message :: rest =>
      match tryGenerateEpochs gen codec current message with
      | .error panic => .error panic
      | .ok next =>
          match tryMixedStream gen codec next.1 rest with
          | .error panic => .error panic
          | .ok more => .ok (next.2.1 ++ more)

/-- The function where no subtraction panics. -/
def limiting (difference : T → T) : Generator K V T Unit :=
  fun _ record lastEpoch => ((), later lastEpoch (difference record.timestamp))

variable {sub : T → B → Except ArithmeticPanic T} {bound : B}
  {difference : T → T} {codec : Codec T}

theorem tryGenerateEpochs_ok {current : EpochState T Unit}
    {message : Message K V T}
    (subtracts : ∀ record ∈ message.data?,
      sub record.timestamp bound = .ok (difference record.timestamp)) :
    tryGenerateEpochs (limitOutOfOrderness sub bound) codec current message =
      .ok (generateEpochs (limiting difference) codec current message) := by
  cases message with
  | data record =>
      simp only [tryGenerateEpochs, limitOutOfOrderness, subtracts record rfl]
      rfl
  | epoch | absBarrier | rescale | suspendMarker | interrogate | collect
  | acquire => rfl

theorem tryMixedStream_ok {start : EpochState T Unit}
    {messages : List (Message K V T)}
    (subtracts : ∀ record ∈ messages.filterMap Message.data?,
      sub record.timestamp bound = .ok (difference record.timestamp)) :
    tryMixedStream (limitOutOfOrderness sub bound) codec start messages =
      .ok (mixedStream (limiting difference) codec start messages) := by
  induction messages generalizing start with
  | nil => rfl
  | cons message rest induction =>
      have now : ∀ record ∈ message.data?,
          sub record.timestamp bound = .ok (difference record.timestamp) :=
        fun record isRecord => subtracts record
          (List.mem_filterMap.mpr ⟨message, .head _, isRecord⟩)
      have behind : ∀ record ∈ rest.filterMap Message.data?,
          sub record.timestamp bound = .ok (difference record.timestamp) := by
        intro record member
        obtain ⟨found, inRest, isRecord⟩ := List.mem_filterMap.mp member
        exact subtracts record
          (List.mem_filterMap.mpr ⟨found, .tail _ inRest, isRecord⟩)
      simp only [tryMixedStream, tryGenerateEpochs_ok now, induction behind]
      rfl

end

/-! ### The running maximum -/

section

variable [LinearOrder T] {difference : T → T} {codec : Codec T}
  {start : EpochState T Unit}

/-- The epoch a message brings up, whether it is proposed or not. -/
def candidate (difference : T → T) : Message K V T → Option T
  | .data record => some (difference record.timestamp)
  | .epoch time => some time
  | _ => none

/-- All epochs brought up by these messages, and the restored one. -/
def candidates (difference : T → T) (start : EpochState T Unit)
    (messages : List (Message K V T)) : List T :=
  start.prevEpoch.toList ++ messages.filterMap (candidate difference)

theorem later_eq_some {lastEpoch : Option T} {newEpoch epoch : T} :
    later lastEpoch newEpoch = some epoch ↔
      newEpoch = epoch ∧ ∀ last ∈ lastEpoch, last < newEpoch := by
  cases lastEpoch with
  | none => simp [later]
  | some last =>
      by_cases above : last < newEpoch
      · simp [later, above]
      · simp [later, above]

theorem issued_limiting {current : EpochState T Unit} {message : Message K V T}
    {epoch : T} :
    issued (limiting difference) current message = some epoch ↔
      candidate difference message = some epoch ∧
        ∀ prev ∈ current.prevEpoch, prev < epoch := by
  rw [issued_eq_some]
  refine and_congr_left fun above => ?_
  cases message with
  | data record =>
      simp only [proposal, limiting, later_eq_some, candidate,
        Option.some.injEq]
      constructor
      · exact And.left
      · rintro rfl
        exact ⟨rfl, above⟩
  | epoch | absBarrier | rescale | suspendMarker | interrogate | collect
  | acquire => rfl

theorem max?_push (items : List T) (next : T) :
    (items ++ [next]).max? =
      some (items.max?.elim next fun greatest => max greatest next) := by
  cases items with
  | nil => rfl
  | cons first rest =>
      rw [List.cons_append, List.max?_cons', List.max?_cons',
        List.foldl_append]
      rfl

theorem lastIssued_limiting (messages : List (Message K V T)) :
    lastIssued (limiting difference) codec start messages =
      (candidates difference start messages).max? := by
  induction messages using List.reverseRecOn with
  | nil => cases isPrev : start.prevEpoch <;> simp [lastIssued, lastEpoch,
      mixedStream, candidates, isPrev]
  | append_singleton messages message induction =>
      have more : candidates difference start (messages ++ [message]) =
          candidates difference start messages ++
            (candidate difference message).toList := by
        unfold candidates
        rw [List.filterMap_append, List.append_assoc]
        congr 2
      rw [lastIssued_push, more, induction]
      rw [← prevEpoch_eq_lastIssued] at induction
      cases isCandidate : candidate difference message with
      | none =>
          have unissued : issued (limiting difference) (stateAfter
              (limiting difference) codec start messages) message = none := by
            rw [Option.eq_none_iff_forall_ne_some]
            intro epoch isIssued
            rw [(issued_limiting.mp isIssued).1] at isCandidate
            cases isCandidate
          simp [unissued]
      | some epoch =>
          rw [Option.toList_some, max?_push, ← induction]
          cases isPrev : (stateAfter (limiting difference) codec start
              messages).prevEpoch with
          | none =>
              rw [issued_limiting.mpr ⟨isCandidate, by simp [isPrev]⟩]
              rfl
          | some prev =>
              by_cases above : prev < epoch
              · rw [issued_limiting.mpr ⟨isCandidate, by simpa [isPrev]⟩]
                simp [max_eq_right above.le]
              · have unissued : issued (limiting difference) (stateAfter
                    (limiting difference) codec start messages) message =
                      none := by
                  rw [Option.eq_none_iff_forall_ne_some]
                  intro other isIssued
                  obtain ⟨isOther, ahead⟩ := issued_limiting.mp isIssued
                  obtain rfl := Option.some.inj (isCandidate.symm.trans isOther)
                  exact above (ahead prev isPrev)
                simp [unissued, max_eq_left (not_lt.mp above)]

theorem inTime_limiting (before : List (Message K V T))
    (record : DataMessage K V T) :
    inTime (limiting difference) codec start before record =
      (candidates difference start before).all fun epoch =>
        decide (epoch < record.timestamp) := by
  unfold inTime
  rw [lastIssued_limiting, Bool.eq_iff_iff, Option.all_eq_true,
    List.all_eq_true]
  simp only [decide_eq_true_eq]
  constructor
  · intro ahead epoch member
    obtain ⟨last, isLast⟩ :=
      Option.isSome_iff_exists.mp (List.isSome_max?_of_mem member)
    exact ((List.max?_eq_some_iff.mp isLast).2 epoch member).trans_lt
      (ahead last isLast)
  · intro ahead last isLast
    exact ahead last (List.max?_eq_some_iff.mp isLast).1

theorem candidate_of_epoch {messages : List (Message K V T)} {epoch : T}
    (member : .epoch epoch ∈
      mixedStream (limiting difference) codec start messages) :
    ∃ message ∈ messages, candidate difference message = some epoch := by
  induction messages using List.reverseRecOn with
  | nil => cases member
  | append_singleton messages message induction =>
      have issues : epoch ∈ (mixedStream (limiting difference) codec start
          (messages ++ [message])).filterMap Message.epoch? :=
        List.mem_filterMap.mpr ⟨_, member, rfl⟩
      rw [epochs_push] at issues
      rcases List.mem_append.mp issues with earlier | now
      · obtain ⟨found, inMessages, isEpoch⟩ := List.mem_filterMap.mp earlier
        rw [Message.epoch?_eq_some.mp isEpoch] at inMessages
        obtain ⟨source, isSource, brings⟩ := induction inMessages
        exact ⟨source, List.mem_append_left _ isSource, brings⟩
      · have isIssued := issued_limiting.mp (Option.mem_toList.mp now)
        exact ⟨message, by simp, isIssued.1⟩

end

theorem classify_congr
    {verdict other : List (Message K V T) → DataMessage K V T → Bool}
    (messages : List (Message K V T))
    (same : ∀ before after, messages = before ++ after →
      verdict before = other before) :
    classify verdict [] messages = classify other [] messages := by
  induction messages using List.reverseRecOn with
  | nil => rfl
  | append_singleton messages message induction =>
      rw [classify_push, classify_push, List.nil_append,
        same messages [message] rfl, induction]
      intro before after split
      apply same before (after ++ [message])
      rw [split, List.append_assoc]

theorem data_map (records : List (DataMessage K V T)) :
    (records.map Message.data).filterMap Message.data? = records := by
  rw [List.filterMap_map]
  exact List.filterMap_some

theorem split_data {records : List (DataMessage K V T)}
    {before after : List (Message K V T)}
    (split : records.map Message.data = before ++ after) :
    ∃ earlier rest, records = earlier ++ rest ∧
      before = earlier.map Message.data := by
  obtain ⟨earlier, rest, rfl, rfl, -⟩ := List.map_eq_append_iff.mp split
  exact ⟨earlier, rest, rfl, rfl⟩

theorem candidates_data [LinearOrder T] (difference : T → T)
    (start : EpochState T Unit) (records : List (DataMessage K V T)) :
    candidates difference start (records.map Message.data) =
      start.prevEpoch.toList ++
        records.map fun record => difference record.timestamp := by
  unfold candidates
  congr 1
  induction records with
  | nil => rfl
  | cons record rest induction => simp [candidate, induction]

/-! ### Integers -/

def integerSub (timestamp bound : Int) : Except ArithmeticPanic Int :=
  .ok (timestamp - bound)

def withinBound (bound : Int) (before : List (Message K V Int))
    (record : DataMessage K V Int) : Bool :=
  (before.filterMap Message.data?).all fun earlier =>
    !decide (record.timestamp ≤ earlier.timestamp - bound)

/-- A record is late if it is not ahead of an earlier timestamp less the bound,
and the epoch emitted last is the greatest timestamp less the bound. -/
theorem limit_follows_maximum (codec : Codec Int) (bound : Int)
    (records : List (DataMessage K V Int)) :
    ∃ mixed ontime late,
      tryMixedStream (limitOutOfOrderness integerSub bound) codec ⟨none, ()⟩
        (records.map .data) = .ok mixed ∧
      splitMixedStream mixed = .ok (ontime, late) ∧
      ontime.filterMap Message.data? = recordsIn true
        (classify (withinBound bound) [] (records.map .data)) ∧
      late.filterMap Message.data? = recordsIn false
        (classify (withinBound bound) [] (records.map .data)) ∧
      lastEpoch ontime =
        (records.map DataMessage.timestamp).max?.map (· - bound) := by
  have verdicts : classify (inTime (limiting (· - bound)) codec ⟨none, ()⟩) []
      (records.map Message.data) =
        classify (withinBound bound) [] (records.map .data) := by
    apply classify_congr
    intro before after split
    obtain ⟨earlier, rest, -, rfl⟩ := split_data split
    funext record
    rw [inTime_limiting, candidates_data, withinBound, data_map,
      Bool.eq_iff_iff]
    simp
  refine ⟨mixedStream (limiting (· - bound)) codec ⟨none, ()⟩ _, _, _,
    tryMixedStream_ok fun _ _ => rfl, splitMixedStream_ok _, ?_, ?_, ?_⟩
  · rw [data_branch, verdicts_mixedStream, verdicts]
  · rw [data_branch, verdicts_mixedStream, verdicts]
  · have last : lastIssued (limiting (· - bound)) codec ⟨none, ()⟩
        (records.map Message.data) =
          (records.map DataMessage.timestamp).max?.map (· - bound) := by
      rw [lastIssued_limiting, candidates_data]
      cases isGreatest : (records.map DataMessage.timestamp).max? with
      | none =>
          rw [List.max?_eq_none_iff, List.map_eq_nil_iff] at isGreatest
          simp [isGreatest]
      | some greatest =>
          obtain ⟨member, bounds⟩ := List.max?_eq_some_iff.mp isGreatest
          obtain ⟨record, inRecords, rfl⟩ := List.mem_map.mp member
          refine List.max?_eq_some_iff.mpr ⟨?_, ?_⟩
          · exact List.mem_map.mpr ⟨record, inRecords, rfl⟩
          · intro epoch isEpoch
            obtain ⟨other, isOther, rfl⟩ := List.mem_map.mp isEpoch
            exact Int.sub_le_sub_right (bounds _ (List.mem_map_of_mem isOther)) bound
    rw [← last, lastEpoch, epochs_branch]
    simp [lastIssued, lastEpoch]

/-! ### Unsigned timestamps -/

/-- How a crate is built: overflow is checked or wraps around. -/
inductive Profile where
  | debug
  | release
  deriving DecidableEq

def unsignedSub {width : Nat} (profile : Profile)
    (timestamp bound : Fin (2 ^ width)) :
    Except ArithmeticPanic (Fin (2 ^ width)) :=
  match profile with
  | .debug =>
      if timestamp < bound then .error .overflow else .ok (timestamp - bound)
  | .release => .ok (timestamp - bound)

/-- What would be decided with integers. -/
def integerInTime {width : Nat} (restored : Option (Fin (2 ^ width)))
    (bound : Fin (2 ^ width)) (before : List (Message K V (Fin (2 ^ width))))
    (record : DataMessage K V (Fin (2 ^ width))) : Bool :=
  (restored.all fun prev => decide (prev < record.timestamp)) &&
    (before.filterMap Message.data?).all fun earlier =>
      decide ((earlier.timestamp : Int) - bound < record.timestamp)

/-- Nothing panics or wraps around, no epoch is greater than every timestamp
seen so far, and no record is late but for what integers make of it. -/
structure SafeArithmetic {width : Nat} (profile : Profile)
    (codec : Codec (Fin (2 ^ width))) (start : EpochState (Fin (2 ^ width)) Unit)
    (bound : Fin (2 ^ width))
    (records : List (DataMessage K V (Fin (2 ^ width)))) : Prop where
  differences : ∀ record ∈ records, ∃ epoch,
    unsignedSub profile record.timestamp bound = .ok epoch ∧
      (epoch : Int) = (record.timestamp : Int) - bound
  seen : ∀ before after, records = before ++ after → ∃ mixed,
    tryMixedStream (limitOutOfOrderness (unsignedSub profile) bound) codec
      start (before.map .data) = .ok mixed ∧
    ∀ epoch, .epoch epoch ∈ mixed →
      ∃ record ∈ before, epoch ≤ record.timestamp
  verdicts : ∃ mixed,
    tryMixedStream (limitOutOfOrderness (unsignedSub profile) bound) codec
      start (records.map .data) = .ok mixed ∧
    mixed.filterMap verdict? =
      classify (integerInTime start.prevEpoch bound) [] (records.map .data)

/-- Arithmetic is safe as long as no timestamp is smaller than the bound. -/
theorem safeArithmetic_iff {width : Nat} (profile : Profile)
    (codec : Codec (Fin (2 ^ width))) (start : EpochState (Fin (2 ^ width)) Unit)
    (bound : Fin (2 ^ width))
    (records : List (DataMessage K V (Fin (2 ^ width)))) :
    SafeArithmetic profile codec start bound records ↔
      ∀ record ∈ records, bound ≤ record.timestamp := by
  constructor
  · intro safe record member
    obtain ⟨epoch, -, difference⟩ := safe.differences record member
    rw [Fin.le_def]
    omega
  · intro above
    have subtracts (record : DataMessage K V (Fin (2 ^ width)))
        (member : record ∈ records) :
        unsignedSub profile record.timestamp bound =
          .ok (record.timestamp - bound) := by
      cases profile with
      | debug => exact if_neg (not_lt.mpr (above record member))
      | release => rfl
    have value (record : DataMessage K V (Fin (2 ^ width)))
        (member : record ∈ records) :
        ((record.timestamp - bound : Fin (2 ^ width)) : Nat) =
          record.timestamp - bound :=
      Fin.sub_val_of_le (above record member)
    have runs {before after : List (DataMessage K V (Fin (2 ^ width)))}
        (split : records = before ++ after) :
        tryMixedStream (limitOutOfOrderness (unsignedSub profile) bound) codec
          start (before.map .data) =
            .ok (mixedStream (limiting (· - bound)) codec start
              (before.map .data)) := by
      apply tryMixedStream_ok
      intro record member
      rw [data_map] at member
      exact subtracts record (split ▸ List.mem_append_left _ member)
    refine ⟨fun record member => ⟨_, subtracts record member, ?_⟩,
      fun before after split => ⟨_, runs split, fun epoch member => ?_⟩,
      ⟨_, runs (List.append_nil records).symm, ?_⟩⟩
    · have below : (bound : Nat) ≤ record.timestamp := above record member
      rw [value record member]
      omega
    · obtain ⟨message, inBefore, brings⟩ := candidate_of_epoch member
      obtain ⟨record, isRecord, rfl⟩ := List.mem_map.mp inBefore
      obtain rfl := Option.some.inj brings
      refine ⟨record, isRecord, ?_⟩
      rw [Fin.le_def, value record (split ▸ List.mem_append_left _ isRecord)]
      exact Nat.sub_le _ _
    · rw [verdicts_mixedStream]
      apply classify_congr
      intro before after split
      obtain ⟨earlier, rest, isSplit, rfl⟩ := split_data split
      funext record
      rw [inTime_limiting, candidates_data, integerInTime, data_map,
        List.all_append]
      congr 1
      · cases start.prevEpoch <;> simp
      · rw [List.all_map, Bool.eq_iff_iff, List.all_eq_true, List.all_eq_true]
        refine forall₂_congr fun other member => ?_
        have inRecords : other ∈ records :=
          isSplit ▸ List.mem_append_left _ member
        have below : (bound : Nat) ≤ other.timestamp := above other inRecords
        simp only [Function.comp_apply, decide_eq_true_eq, Fin.lt_def,
          value other inRecords]
        omega

/-- Timestamps written as that many zeros. -/
def zerosCodec (width : Nat) : Codec (Fin (2 ^ width)) where
  toVec timestamp := List.replicate timestamp 0
  fromSlice bytes :=
    if fits : bytes.length < 2 ^ width then some ⟨bytes.length, fits⟩ else none
  faithful timestamp := by simp

/-- A stream whose first timestamp is 0, as that of an iterator is. -/
def fromZero : List (DataMessage Unit Unit (Fin (2 ^ 64))) :=
  [⟨(), (), 0⟩, ⟨(), (), 1⟩]

theorem fromZero_unsafe :
    (∀ profile, ¬ SafeArithmetic profile (zerosCodec 64) ⟨none, ()⟩ 30
      fromZero) ∧
    tryMixedStream (limitOutOfOrderness (unsignedSub .debug) 30)
      (zerosCodec 64) ⟨none, ()⟩ (fromZero.map .data) = .error .overflow ∧
    tryMixedStream (limitOutOfOrderness (unsignedSub .release) 30)
      (zerosCodec 64) ⟨none, ()⟩ (fromZero.map .data) =
        .ok [.data ⟨(), .onTime (), 0⟩, .epoch 18446744073709551586,
          .data ⟨(), .late (), 1⟩, .epoch 18446744073709551587] := by
  refine ⟨fun profile safe => ?_, rfl, rfl⟩
  obtain ⟨epoch, -, difference⟩ := safe.differences ⟨(), (), 0⟩ (.head _)
  have negative : (epoch : Int) = 0 - 30 := difference
  omega

end Malstrom.Operators
