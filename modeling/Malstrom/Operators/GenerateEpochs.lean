import Malstrom.Data.Answer
import Malstrom.Snapshot.State

namespace Malstrom.Operators

open Data Snapshot

variable {K V T G : Type}

/-! Epochs generated from the records of a stream. -/

/-- A record which comes after the epoch which was issued last, or not. -/
inductive OnTimeLate (V : Type) where
  | onTime (value : V)
  | late (value : V)
  deriving DecidableEq

/-- The message with the wrapped value of its record taken apart. -/
def OnTimeLate.unwrap (onTime late : V → V) :
    Message K (OnTimeLate V) T → Message K V T
  | .data ⟨key, .onTime value, timestamp⟩ => .data ⟨key, onTime value, timestamp⟩
  | .data ⟨key, .late value, timestamp⟩ => .data ⟨key, late value, timestamp⟩
  | .epoch time => .epoch time
  | .absBarrier => .absBarrier
  | .rescale message => .rescale message
  | .suspendMarker => .suspendMarker
  | .interrogate => .interrogate
  | .collect key => .collect key
  | .acquire acquire => .acquire acquire

/-- The epoch to issue after a record, if any; `G` is what the function
remembers. -/
abbrev Generator (K V T G : Type) :=
  G → DataMessage K V T → Option T → G × Option T

structure EpochState (T G : Type) where
  prevEpoch : Option T
  memory : G

section

variable [LT T] [DecidableLT T]

def handleMaybeLateMsg (prevEpoch : Option T) (message : DataMessage K V T) :
    Message K (OnTimeLate V) T :=
  let wrapped := match prevEpoch with
    | some prev =>
        if prev < message.timestamp then .onTime message.value
        else .late message.value
    -- without a previous epoch the record can not be late
    | none => .onTime message.value
  .data ⟨message.key, wrapped, message.timestamp⟩

def issue : Option T → Option T → Option T × List (Message K (OnTimeLate V) T)
  | none, none => (none, [])
  | none, some prev => (some prev, [])
  | some epoch, none => (some epoch, [.epoch epoch])
  | some epoch, some prev =>
      if prev < epoch then (some epoch, [.epoch epoch]) else (some prev, [])

/-- What a message makes the operator send, and what a barrier makes it
persist. -/
def generateEpochs (gen : Generator K V T G) (codec : Codec T)
    (current : EpochState T G) (message : Message K V T) :
    EpochState T G × List (Message K (OnTimeLate V) T) × Option Bytes :=
  match message with
  | .data record =>
      let generated := gen current.memory record current.prevEpoch
      let issued := issue generated.2 current.prevEpoch
      ({ prevEpoch := issued.1, memory := generated.1 },
        handleMaybeLateMsg current.prevEpoch record :: issued.2, none)
  -- an `Option` is written here
  | .absBarrier => (current, [.absBarrier],
      some (codec.serializeOption current.prevEpoch))
  | .epoch time =>
      if current.prevEpoch.all fun prev => decide (prev < time) then
        ({ current with prevEpoch := some time }, [.epoch time], none)
      else (current, [], none)
  | .interrogate => (current, [.interrogate], none)
  | .collect key => (current, [.collect key], none)
  | .acquire acquire => (current, [.acquire acquire], none)
  | .rescale rescale => (current, [.rescale rescale], none)
  | .suspendMarker => (current, [.suspendMarker], none)

/-- The operator is built from what was persisted for it, which is read as a
timestamp. -/
def EpochState.build (codec : Codec T) (memory : G)
    (persisted : Option Bytes) : Except StatePanic (EpochState T G) :=
  match codec.loadState persisted with
  | .ok prevEpoch => .ok { prevEpoch := prevEpoch, memory := memory }
  | .error panic => .error panic

/-- Of these messages one is an epoch, or makes the generator return one. -/
def Issues (gen : Generator K V T G) (memory : G) :
    List (Message K V T) → Prop
  | [] => False
  | .data record :: rest =>
      (gen memory record none).2.isSome ∨
        Issues gen (gen memory record none).1 rest
  | .epoch _ :: _ => True
  | _ :: rest => Issues gen memory rest

/-! ### A restart -/

variable {gen : Generator K V T G} {codec : Codec T}
  {current : EpochState T G}

/-- An issued epoch is never forgotten. -/
theorem generateEpochs_isSome (message : Message K V T)
    (issued : current.prevEpoch.isSome = true) :
    (generateEpochs gen codec current message).1.prevEpoch.isSome = true := by
  obtain ⟨prev, isPrev⟩ := Option.isSome_iff_exists.mp issued
  cases message with
  | data record =>
      simp only [generateEpochs, isPrev]
      cases (gen current.memory record (some prev)).2 with
      | none => rfl
      | some epoch =>
          simp only [issue]
          split <;> rfl
  | epoch time =>
      simp only [generateEpochs]
      split
      · rfl
      · exact issued
  | absBarrier | rescale | suspendMarker | interrogate | collect | acquire =>
      exact issued

theorem prevEpoch_isSome_iff (codec : Codec T)
    (messages : List (Message K V T)) :
    (answer (generateEpochs gen codec) current
        messages).1.prevEpoch.isSome = true ↔
      current.prevEpoch.isSome = true ∨
        Issues gen current.memory messages := by
  induction messages generalizing current with
  | nil => simp [Issues]
  | cons message rest ih =>
      have keeps : current.prevEpoch.isSome = true →
          (answer (generateEpochs gen codec) current
            (message :: rest)).1.prevEpoch.isSome = true := fun issued =>
        answer_invariant
          (fun state : EpochState T G => state.prevEpoch.isSome = true)
          (fun state message => generateEpochs_isSome message) issued
          (message :: rest)
      cases isPrev : current.prevEpoch with
      | some prev => simpa [isPrev] using keeps
      | none =>
          rw [answer_cons, ih]
          cases message with
          | data record =>
              simp only [generateEpochs, isPrev, Issues]
              cases (gen current.memory record none).2 with
              | none => simp [issue]
              | some epoch => simp [issue]
          | epoch time => simp [generateEpochs, isPrev, Issues]
          | absBarrier | rescale | suspendMarker | interrogate | collect
          | acquire => simp [generateEpochs, isPrev, Issues]

/-- Rebuilding the operator from what it persists at a barrier succeeds, yields
the previous epoch it had, and nobody notices from then on. -/
def Resumes (gen : Generator K V T G) (codec : Codec T)
    (start : EpochState T G) (before : List (Message K V T)) (memory : G)
    (rest : List (Message K V T)) : Prop :=
  let step := generateEpochs gen codec
  let stopped := (answer step start before).1
  ∃ resumed,
    EpochState.build codec memory (step stopped .absBarrier).2.2 =
      .ok resumed ∧
    resumed.prevEpoch = stopped.prevEpoch ∧
    (memory = stopped.memory →
      answer step start (before ++ .absBarrier :: rest) =
        ((answer step resumed rest).1,
          (answer step start (before ++ [.absBarrier])).2 ++
            (answer step resumed rest).2))

/-- `None` is written but can not be read back as a timestamp. -/
theorem resumes_iff (notNil : codec.fromSlice nil = none)
    (start : EpochState T G) (before : List (Message K V T)) (memory : G)
    (rest : List (Message K V T)) :
    Resumes gen codec start before memory rest ↔
      start.prevEpoch.isSome = true ∨ Issues gen start.memory before := by
  rw [← prevEpoch_isSome_iff codec]
  unfold Resumes
  simp only [answer_append, answer_cons, answer_nil]
  generalize (answer (generateEpochs gen codec) start before).1 = stopped
  obtain ⟨prevEpoch, remembered⟩ := stopped
  cases prevEpoch with
  | none =>
      simp [generateEpochs, EpochState.build, Codec.serializeOption,
        Codec.loadState_nil notNil]
  | some prev =>
      refine iff_of_true ⟨⟨some prev, memory⟩, ?_, rfl, ?_⟩ rfl
      · simp [generateEpochs, EpochState.build, Codec.serializeOption]
      · rintro rfl
        simp [generateEpochs]

end

def everyTimestamp : Generator K V T Unit :=
  fun _ record _ => ((), some record.timestamp)

theorem record_resumes :
    byteCodec.fromSlice nil = none ∧
      Resumes (K := Unit) (V := Unit) everyTimestamp byteCodec ⟨none, ()⟩
        [.data ⟨(), (), 7⟩] () [.data ⟨(), (), 5⟩, .data ⟨(), (), 9⟩] :=
  ⟨byteCodec_notNil,
    (resumes_iff byteCodec_notNil ⟨none, ()⟩ _ () _).mpr
      (.inr (.inl rfl))⟩

/-- A snapshot is taken before the first record arrives. -/
theorem early_snapshot_panics :
    byteCodec.fromSlice nil = none ∧
      ¬ Resumes (K := Unit) (V := Unit) everyTimestamp byteCodec ⟨none, ()⟩
        [] () [] := by
  refine ⟨byteCodec_notNil, ?_⟩
  rintro ⟨resumed, isBuilt, -⟩
  have panics : EpochState.build byteCodec () (some nil) =
      .error .deserializing := by
    simp [EpochState.build, Codec.loadState_nil byteCodec_notNil]
  exact absurd (panics.symm.trans isBuilt) nofun

end Malstrom.Operators
