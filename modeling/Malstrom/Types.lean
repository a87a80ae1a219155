import Mathlib.Order.MinMax
import Malstrom.Data.IndexMap

namespace Malstrom

open Data

/-! The vocabulary every part of the engine shares. -/

abbrev WorkerId := Nat

abbrev OperatorId := Nat

abbrev Version := Nat

abbrev Bytes := List UInt8

structure DataMessage (K V T : Type) where
  key : K
  value : V
  timestamp : T
  deriving DecidableEq

structure RescaleMessage where
  workers : IndexSet WorkerId
  version : Version
  deriving DecidableEq

/-- Times which may not be set: `tryMerge` is the lowest common timestamp
where the type has one. -/
class MaybeTime (T : Type) where
  tryMerge : T → T → Option T

namespace MaybeTime

variable {T : Type} [MaybeTime T]

private def mergeFrom (merged : Option T) : List (Option T) → Option T
  | [] => merged
  | some other :: rest =>
      mergeFrom (merged.bind fun time => tryMerge time other) rest
  | none :: _ => none

/-- Merge of all timestamps, absent as soon as one of them is. -/
def mergeTimestamps : List (Option T) → Option T
  | [] => none
  | first :: rest => mergeFrom first rest

theorem mergeTimestamps_cons_some (first : Option T) (other : T)
    (rest : List (Option T)) :
    mergeTimestamps (first :: some other :: rest) =
      mergeTimestamps ((first.bind fun time => tryMerge time other) :: rest) :=
  rfl

end MaybeTime

namespace MaybeTime

variable {T : Type} [LinearOrder T] [MaybeTime T]

/-- Totally ordered times whose lowest common timestamp is the earlier one. -/
def MergesMin (T : Type) [LinearOrder T] [MaybeTime T] : Prop :=
  ∀ left right : T, tryMerge left right = some (min left right)

theorem mergeTimestamps_eq_some (merges : MergesMin T)
    {times : List (Option T)} {merged : T} :
    mergeTimestamps times = some merged ↔
      some merged ∈ times ∧
        ∀ time ∈ times, ∃ value, time = some value ∧ merged ≤ value := by
  cases times with
  | nil => simp [mergeTimestamps]
  | cons first rest =>
      induction rest generalizing first with
      | nil => grind [mergeTimestamps, mergeFrom]
      | cons other rest ih =>
          cases other with
          | none => simp [mergeTimestamps, mergeFrom]
          | some time =>
              rw [mergeTimestamps_cons_some, ih]
              cases first with
              | none => simp
              | some earlier =>
                  rw [show (some earlier).bind (fun value => tryMerge value time)
                      = some (min earlier time) from merges earlier time]
                  simp only [List.mem_cons, forall_eq_or_imp,
                    Option.some.injEq, exists_eq_left', le_min_iff]
                  have : merged ≤ earlier → merged ≤ time →
                      (merged = min earlier time ↔
                        merged = earlier ∨ merged = time) := by
                    intro left right
                    cases le_total earlier time with
                    | inl ordered => rw [min_eq_left ordered]; grind
                    | inr ordered => rw [min_eq_right ordered]; grind
                  tauto

theorem mergeTimestamps_isSome (merges : MergesMin T)
    {times : List (Option T)} (nonempty : times ≠ [])
    (present : ∀ time ∈ times, time ≠ none) :
    ∃ merged, mergeTimestamps times = some merged := by
  cases times with
  | nil => exact absurd rfl nonempty
  | cons first rest =>
      induction rest generalizing first with
      | nil => exact Option.ne_none_iff_exists'.mp (present first (by simp))
      | cons other rest ih =>
          obtain ⟨earlier, rfl⟩ :=
            Option.ne_none_iff_exists'.mp (present first (by simp))
          obtain ⟨time, rfl⟩ :=
            Option.ne_none_iff_exists'.mp (present other (by simp))
          rw [mergeTimestamps_cons_some,
            show (some earlier).bind (fun value => tryMerge value time) =
              some (min earlier time) from merges earlier time]
          refine ih _ (by simp) fun time member => ?_
          cases List.mem_cons.mp member with
          | inl same => simp [same]
          | inr later => exact present time (by simp [later])

end MaybeTime

inductive NoTime where
  | noTime
  deriving DecidableEq

instance : MaybeTime NoTime := ⟨fun _ _ => some .noTime⟩

/-- Two of them are never in order. -/
instance : LT NoTime := ⟨fun _ _ => False⟩

instance : DecidableLT NoTime := fun _ _ => isFalse id

instance : MaybeTime Nat := ⟨fun left right => some (min left right)⟩

theorem MaybeTime.mergesMin_nat : MergesMin Nat := fun _ _ => rfl

/-- The state of a key on its way from a `Collect` to another worker.  All clones
of the message share one cell in the source, out of which each operator takes its
state once; here a clone holds its own collection, so an operator which two
clones come to, behind a union, finds its state in both. -/
structure Acquire (K : Type) where
  key : K
  collection : IndexMap OperatorId Bytes
  deriving DecidableEq

namespace Acquire

variable {K : Type}

def takeState (acquire : Acquire K) (operatorId : OperatorId) :
    Option (K × Bytes) × Acquire K :=
  ((acquire.collection.get? operatorId).map fun state => (acquire.key, state),
    { acquire with collection := acquire.collection.swapRemove operatorId })

@[simp] theorem takeState_key (acquire : Acquire K) (operatorId : OperatorId) :
    (acquire.takeState operatorId).2.key = acquire.key := rfl

end Acquire

/-- Messages between operators of one worker.  An `Interrogate` and a
`Collect` hold a counted pointer to a cell which all their clones share; the
cell stays with the router which made it and a clone is the bare message. -/
inductive Message (K V T : Type) where
  | data (message : DataMessage K V T)
  | epoch (time : T)
  | absBarrier
  | rescale (message : RescaleMessage)
  | suspendMarker
  | interrogate
  | collect (key : K)
  | acquire (acquire : Acquire K)
  deriving DecidableEq

namespace Message

variable {K V T : Type}

def data? : Message K V T → Option (DataMessage K V T)
  | .data message => some message
  | _ => none

def epoch? : Message K V T → Option T
  | .epoch time => some time
  | _ => none

theorem data?_eq_some {message : Message K V T} {record : DataMessage K V T} :
    message.data? = some record ↔ message = .data record := by
  cases message <;> simp [data?]

theorem epoch?_eq_some {message : Message K V T} {epoch : T} :
    message.epoch? = some epoch ↔ message = .epoch epoch := by
  cases message <;> simp [epoch?]

def isBarrier : Message K V T → Bool
  | .absBarrier => true
  | _ => false

def isSuspend : Message K V T → Bool
  | .suspendMarker => true
  | _ => false

/-- A snapshot barrier or a suspend marker, which every input aligns. -/
def isMarker : Message K V T → Bool
  | .absBarrier | .suspendMarker => true
  | _ => false

def rescale? : Message K V T → Option RescaleMessage
  | .rescale message => some message
  | _ => none

def key? : Message K V T → Option K
  | .data message => some message.key
  | .acquire moved => some moved.key
  | _ => none

/-- Neither a record nor a state nor a clone. -/
def isQuiet : Message K V T → Bool
  | .epoch _ | .absBarrier | .rescale _ | .suspendMarker => true
  | .data _ | .interrogate | .collect _ | .acquire _ => false

/-- A clone of the `Interrogate` or `Collect` cell of a router. -/
def isClone : Message K V T → Bool
  | .interrogate | .collect _ => true
  | _ => false

def isInterrogate : Message K V T → Bool
  | .interrogate => true
  | _ => false

def isCollect [DecidableEq K] (key : K) : Message K V T → Bool
  | .collect collected => decide (collected = key)
  | _ => false

/-- A record or the state of the key, or a clone of its `Collect`. -/
def concerns [DecidableEq K] (key : K) (message : Message K V T) : Bool :=
  decide (message.key? = some key) || message.isCollect key

def isAcquire : Message K V T → Bool
  | .acquire _ => true
  | _ => false

theorem isInterrogate_of_not_isClone {message : Message K V T}
    (noClone : message.isClone = false) : message.isInterrogate = false := by
  cases message <;> first | rfl | simp [isClone] at noClone

theorem isCollect_of_not_isClone [DecidableEq K] {message : Message K V T}
    (noClone : message.isClone = false) (key : K) :
    message.isCollect key = false := by
  cases message <;> first | rfl | simp [isClone] at noClone

theorem key?_of_isQuiet {message : Message K V T}
    (quiet : message.isQuiet = true) :
    message.key? = none ∧ message.isClone = false := by
  cases message <;> first | exact ⟨rfl, rfl⟩ | simp [isQuiet] at quiet

end Message

end Malstrom
