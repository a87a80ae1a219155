import Malstrom.Types

namespace Malstrom.Channels

open MaybeTime

/-! Local channels between the operators of one worker: the edges of the
stream graph. -/

structure UpstreamState (K V T : Type) where
  epoch : Option T := none
  receiver : List (Message K V T) := []

structure Input (K V T : Type) where
  receivers : List (UpstreamState K V T)
  /-- Largest observed epoch. -/
  frontier : Option T

/-- What aborts an operator which reads its input: the `unreachable!` behind
the four reasons for not receiving. -/
inductive InputPanic where
  | mixedMarkers
  deriving DecidableEq

variable {K V T : Type}

def canRecvUnaligned : List (Message K V T) → Bool
  | [] => false
  | next :: _ => !next.isMarker

/-- Does the channel start with a message of this kind? -/
def peekApply (test : Message K V T → Bool) : List (Message K V T) → Bool
  | [] => false
  | next :: _ => test next

namespace UpstreamState

def pop (upstream : UpstreamState K V T) : UpstreamState K V T :=
  { upstream with receiver := upstream.receiver.tail }

end UpstreamState

namespace Input

def newUnlinked : Input K V T := { receivers := [], frontier := none }

def link (input : Input K V T) : Input K V T :=
  { input with receivers := input.receivers ++ [{}] }

/-- Capable of receiving, which does not mean an operator will. -/
def canProgress (input : Input K V T) : Bool :=
  input.receivers.any fun upstream => canRecvUnaligned upstream.receiver

/-- The channel served next: the leftmost whose head needs no alignment. -/
def next? (input : Input K V T) : Option Nat :=
  input.receivers.findIdx? fun upstream => canRecvUnaligned upstream.receiver

def queue (input : Input K V T) (channel : Nat) : List (Message K V T) :=
  match input.receivers[channel]? with
  | some upstream => upstream.receiver
  | none => []

def push (input : Input K V T) (channel : Nat) (message : Message K V T) :
    Input K V T :=
  { input with receivers := input.receivers.modify channel fun upstream =>
      { upstream with receiver := upstream.receiver ++ [message] } }

variable [MaybeTime T] [LT T] [DecidableLT T]

/-- Take an epoch of one channel: what is emitted is the merge of the last
epochs of all channels. -/
def recvEpoch (input : Input K V T) (channel : Nat) (epoch : T) :
    Option (Message K V T) × Input K V T :=
  let receivers := input.receivers.modify channel fun upstream =>
    { upstream.pop with epoch := some epoch }
  let merged := mergeTimestamps (receivers.map UpstreamState.epoch)
  let frontier :=
    match merged with
    | none => input.frontier
    | some reached =>
        match input.frontier with
        | none => some reached
        | some frontier =>
            if frontier < reached then some reached else some frontier
  (merged.map .epoch, { receivers := receivers, frontier := frontier })

/-- Take one marker off every channel and deliver the last one. -/
def takeMarkers (input : Input K V T) :
    Option (Message K V T) × Input K V T :=
  ((input.receivers.filterMap fun upstream => upstream.receiver.head?).getLast?,
    { input with receivers := input.receivers.map UpstreamState.pop })

/-- There is no message to receive unaligned: wait unless all channels have a
barrier, or all a suspend marker, upcoming. -/
def recvMarker (input : Input K V T) :
    Except InputPanic (Option (Message K V T) × Input K V T) :=
  if input.receivers.any fun upstream => upstream.receiver.isEmpty then
    .ok (none, input)
  else if input.receivers.isEmpty then .ok (none, input)
  else if input.receivers.all fun upstream =>
      peekApply Message.isBarrier upstream.receiver then
    .ok input.takeMarkers
  else if input.receivers.all fun upstream =>
      peekApply Message.isSuspend upstream.receiver then
    .ok input.takeMarkers
  else .error .mixedMarkers

def recv (input : Input K V T) :
    Except InputPanic (Option (Message K V T) × Input K V T) :=
  match input.next? with
  | some channel =>
      match input.queue channel with
      | .epoch epoch :: _ => .ok (input.recvEpoch channel epoch)
      | message :: _ =>
          .ok (some message, { input with
            receivers := input.receivers.modify channel UpstreamState.pop })
      | [] => .ok (none, input)
  | none => input.recvMarker

end Input

/-! What one call of `recv` can do. -/

/-- Every channel is empty or waits behind a marker. -/
def Input.Stalled (input : Input K V T) : Prop :=
  ∀ upstream ∈ input.receivers,
    canRecvUnaligned upstream.receiver = false

section

variable [MaybeTime T] [LT T] [DecidableLT T]

inductive Received (input : Input K V T) :
    Option (Message K V T) → Input K V T → Prop
  | passed {channel : Nat} {message : Message K V T}
      {rest : List (Message K V T)}
      (next : input.next? = some channel)
      (linked : channel < input.receivers.length)
      (queue : input.queue channel = message :: rest)
      (unmarked : message.isMarker = false)
      (noEpoch : message.epoch? = none) :
      Received input (some message) { input with
        receivers := input.receivers.modify channel UpstreamState.pop }
  | epoch {channel : Nat} {epoch : T} {rest : List (Message K V T)}
      (next : input.next? = some channel)
      (linked : channel < input.receivers.length)
      (queue : input.queue channel = .epoch epoch :: rest) :
      Received input (input.recvEpoch channel epoch).1
        (input.recvEpoch channel epoch).2
  | idle (stalled : input.Stalled)
      (waiting : input.receivers = [] ∨
        ∃ upstream ∈ input.receivers, upstream.receiver = []) :
      Received input none input
  | aligned {marker : Message K V T}
      (stalled : input.Stalled)
      (linked : input.receivers ≠ [])
      (isMarker : marker.isMarker = true)
      (heads : ∀ upstream ∈ input.receivers,
        ∃ rest, upstream.receiver = marker :: rest) :
      Received input (some marker) input.takeMarkers.2

end

theorem canRecvUnaligned_eq_true {queue : List (Message K V T)}
    (receivable : canRecvUnaligned queue = true) :
    ∃ message rest, queue = message :: rest ∧ message.isMarker = false := by
  cases queue with
  | nil => simp [canRecvUnaligned] at receivable
  | cons message rest =>
      exact ⟨message, rest, rfl, by simpa [canRecvUnaligned] using receivable⟩

theorem Input.next?_eq_some {input : Input K V T} {channel : Nat}
    (next : input.next? = some channel) :
    channel < input.receivers.length ∧
      ∃ message rest, input.queue channel = message :: rest ∧
        message.isMarker = false := by
  obtain ⟨linked, receivable, -⟩ := List.findIdx?_eq_some_iff_getElem.mp next
  refine ⟨linked, ?_⟩
  simp only [Input.queue, List.getElem?_eq_getElem linked]
  exact canRecvUnaligned_eq_true receivable

theorem Input.next?_eq_none {input : Input K V T} :
    input.next? = none ↔ input.Stalled := by
  simp [Input.Stalled, Input.next?]

/-- When every channel has a marker upcoming and they are all of one kind, the
last of them is that marker. -/
theorem Input.takeMarkers_eq {input : Input K V T} {marker : Message K V T}
    (linked : input.receivers ≠ [])
    (heads : ∀ upstream ∈ input.receivers,
      ∃ rest, upstream.receiver = marker :: rest) :
    input.takeMarkers = (some marker, input.takeMarkers.2) := by
  have markers : input.receivers.filterMap
      (fun upstream => upstream.receiver.head?) =
      List.replicate input.receivers.length marker := by
    rw [List.filterMap_congr (g := fun _ => some marker)]
    · simp
    · intro upstream member
      obtain ⟨rest, receiver⟩ := heads upstream member
      rw [receiver, List.head?_cons]
  have : input.receivers.length ≠ 0 := by simpa using linked
  simp [Input.takeMarkers, markers, List.getLast?_replicate, this]

theorem head_isMarker {queue : List (Message K V T)} (queued : queue ≠ [])
    (stalled : canRecvUnaligned queue = false) :
    (∃ rest, queue = .absBarrier :: rest) ∨
      ∃ rest, queue = .suspendMarker :: rest := by
  cases queue with
  | nil => exact absurd rfl queued
  | cons message rest =>
      cases message <;> simp_all [canRecvUnaligned, Message.isMarker]

theorem peekApply_isBarrier {queue : List (Message K V T)}
    (barred : peekApply Message.isBarrier queue = true) :
    ∃ rest, queue = .absBarrier :: rest := by
  cases queue with
  | nil => simp [peekApply] at barred
  | cons message rest =>
      cases message <;> simp [peekApply, Message.isBarrier] at barred
      exact ⟨rest, rfl⟩

theorem peekApply_isSuspend {queue : List (Message K V T)}
    (suspended : peekApply Message.isSuspend queue = true) :
    ∃ rest, queue = .suspendMarker :: rest := by
  cases queue with
  | nil => simp [peekApply] at suspended
  | cons message rest =>
      cases message <;> simp [peekApply, Message.isSuspend] at suspended
      exact ⟨rest, rfl⟩

section

variable [MaybeTime T] [LT T] [DecidableLT T]

theorem Input.recvMarker_received {input next : Input K V T}
    {returned : Option (Message K V T)} (stalled : input.Stalled)
    (received : input.recvMarker = .ok (returned, next)) :
    Received input returned next := by
  simp only [Input.recvMarker] at received
  split at received
  next empty =>
    obtain ⟨rfl, rfl⟩ := by simpa using received
    refine .idle stalled (.inr ?_)
    simpa using empty
  next full =>
    split at received
    next unlinked =>
      obtain ⟨rfl, rfl⟩ := by simpa using received
      exact .idle stalled (.inl (by simpa using unlinked))
    next linked =>
      have linked : input.receivers ≠ [] := by simpa using linked
      split at received
      next barred =>
        have heads : ∀ upstream ∈ input.receivers,
            ∃ rest, upstream.receiver = .absBarrier :: rest :=
          fun upstream member =>
            peekApply_isBarrier (List.all_eq_true.mp barred upstream member)
        rw [Input.takeMarkers_eq linked heads] at received
        obtain ⟨rfl, rfl⟩ := by simpa using received
        exact .aligned stalled linked rfl heads
      next =>
        split at received
        next suspended =>
          have heads : ∀ upstream ∈ input.receivers,
              ∃ rest, upstream.receiver = .suspendMarker :: rest :=
            fun upstream member => peekApply_isSuspend
              (List.all_eq_true.mp suspended upstream member)
          rw [Input.takeMarkers_eq linked heads] at received
          obtain ⟨rfl, rfl⟩ := by simpa using received
          exact .aligned stalled linked rfl heads
        next => simp at received

theorem Input.recv_received {input next : Input K V T}
    {returned : Option (Message K V T)}
    (received : input.recv = .ok (returned, next)) :
    Received input returned next := by
  cases found : input.next? with
  | none =>
      apply recvMarker_received (next?_eq_none.mp found)
      simpa [Input.recv, found] using received
  | some channel =>
      obtain ⟨linked, message, rest, queue, unmarked⟩ := next?_eq_some found
      cases isEpoch : message.epoch? with
      | none =>
          have same : input.recv = .ok (some message, { input with
              receivers := input.receivers.modify channel
                UpstreamState.pop }) := by
            cases message <;> simp_all [Input.recv, Message.epoch?]
          obtain ⟨rfl, rfl⟩ := by simpa [same] using received
          exact .passed found linked queue unmarked isEpoch
      | some epoch =>
          have : message = .epoch epoch := by
            cases message <;> simp_all [Message.epoch?]
          subst this
          have : input.recvEpoch channel epoch = (returned, next) := by
            simpa [Input.recv, found, queue] using received
          obtain ⟨rfl, rfl⟩ := Prod.ext_iff.mp this
          exact .epoch found linked queue

theorem Input.recv_panics {input : Input K V T} {panic : InputPanic}
    (panics : input.recv = .error panic) :
    ∃ barred ∈ input.receivers, ∃ suspended ∈ input.receivers,
      (∃ rest, barred.receiver = .absBarrier :: rest) ∧
        ∃ rest, suspended.receiver = .suspendMarker :: rest := by
  cases found : input.next? with
  | some channel =>
      obtain ⟨linked, message, rest, queue, unmarked⟩ := next?_eq_some found
      simp only [Input.recv, found, queue] at panics
      cases message <;> simp at panics
  | none =>
      simp only [Input.recv, found, Input.recvMarker] at panics
      split at panics
      next => simp at panics
      next full =>
        split at panics
        next => simp at panics
        next =>
          split at panics
          next => simp at panics
          next unbarred =>
            split at panics
            next => simp at panics
            next unsuspended =>
              have marked : ∀ upstream ∈ input.receivers,
                  (∃ rest, upstream.receiver = .absBarrier :: rest) ∨
                    ∃ rest, upstream.receiver = .suspendMarker :: rest := by
                intro upstream member
                apply head_isMarker _ (next?_eq_none.mp found upstream member)
                intro empty
                exact full (List.any_eq_true.mpr
                  ⟨upstream, member, by simp [empty]⟩)
              simp only [List.all_eq_true, not_forall] at unbarred unsuspended
              obtain ⟨second, member, isBarrier⟩ := unbarred
              obtain ⟨first, member', isSuspend⟩ := unsuspended
              refine ⟨first, member', second, member, ?_, ?_⟩
              · cases marked first member' with
                | inl barred => exact barred
                | inr suspended =>
                    obtain ⟨rest, receiver⟩ := suspended
                    simp [receiver, peekApply, Message.isSuspend] at isSuspend
              · cases marked second member with
                | inl barred =>
                    obtain ⟨rest, receiver⟩ := barred
                    simp [receiver, peekApply, Message.isBarrier] at isBarrier
                | inr suspended => exact suspended

end

/-- One input linked to everything the given inputs were linked to. -/
def mergeInputs [MaybeTime T] (groups : List (Input K V T)) : Input K V T :=
  { receivers := groups.flatMap Input.receivers
    frontier := mergeTimestamps (groups.map Input.frontier) }

end Malstrom.Channels
