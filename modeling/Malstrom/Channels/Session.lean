import Malstrom.Data.Transition
import Malstrom.Channels.OperatorIo

namespace Malstrom.Channels

open Data

variable {K V T : Type}

/-! An input together with everything which was sent to it and everything its
operator got from it. -/

structure Session (K V T : Type) where
  input : Input K V T
  sent : Nat → List (Message K V T)
  /-- What has left each channel. -/
  received : Nat → List (Message K V T)
  /-- What `recv` has returned, each with the channel it served; a marker is
  taken off all channels at once. -/
  delivered : List (Option Nat × Message K V T)

inductive Session.Event (K V T : Type) where
  | send (channel : Nat) (message : Message K V T)
  | recv

namespace Input

/-- What has left a channel between two states of the input. -/
def left (before after : Input K V T) (channel : Nat) :
    List (Message K V T) :=
  (before.queue channel).take
    ((before.queue channel).length - (after.queue channel).length)

end Input

namespace Session

def start (input : Input K V T) : Session K V T :=
  { input := input, sent := input.queue, received := fun _ => []
    delivered := [] }

section

variable [MaybeTime T] [LT T] [DecidableLT T]

def step (session : Session K V T) :
    Event K V T → Except InputPanic (Session K V T)
  | .send channel message =>
      .ok { session with
        input := session.input.push channel message
        sent := Function.update session.sent channel
          (session.sent channel ++ [message]) }
  | .recv =>
      match session.input.recv with
      | .error panic => .error panic
      | .ok (returned, next) =>
          .ok { session with
            input := next
            received := fun channel =>
              session.received channel ++ session.input.left next channel
            delivered := session.delivered ++
              returned.toList.map fun message =>
                (session.input.next?, message) }

end

def channels (session : Session K V T) : Nat := session.input.receivers.length

end Session

def plain (messages : List (Message K V T)) : List (Message K V T) :=
  messages.filter fun message => message.epoch?.isNone

def markers (messages : List (Message K V T)) : List (Message K V T) :=
  messages.filter Message.isMarker

/-- What was delivered of one channel, with the markers aligned with it. -/
def deliveredOf (channel : Nat)
    (delivered : List (Option Nat × Message K V T)) :
    List (Message K V T) :=
  delivered.filterMap fun delivery =>
    match delivery.1 with
    | none => some delivery.2
    | some source => if source = channel then some delivery.2 else none

/-- A marker comes to a channel as a copy of one which another channel has
got, or as a new one when no copy of the previous one is left. -/
def Session.issues (session : Session K V T) (channel : Nat)
    (marker : Message K V T) : Prop :=
  (∃ other < session.channels,
    markers (session.sent other) =
      markers (session.sent channel) ++ [marker]) ∨
    ∀ other < session.channels, markers (session.input.queue other) = []

def Session.allowed (session : Session K V T) : Session.Event K V T → Prop
  | .send channel message =>
      channel < session.channels ∧
        (message.isMarker = true → session.issues channel message)
  | .recv => True

section

variable [DecidableEq K] [DecidableEq V] [DecidableEq T]

instance (session : Session K V T) (channel : Nat) (marker : Message K V T) :
    Decidable (session.issues channel marker) :=
  inferInstanceAs (Decidable ((∃ other < session.channels,
    markers (session.sent other) =
      markers (session.sent channel) ++ [marker]) ∨
    ∀ other < session.channels, markers (session.input.queue other) = []))

instance (session : Session K V T) :
    (event : Session.Event K V T) → Decidable (session.allowed event)
  | .send channel message =>
      inferInstanceAs (Decidable (channel < session.channels ∧
        (message.isMarker = true → session.issues channel message)))
  | .recv => isTrue trivial

end

@[simp] theorem plain_append (first second : List (Message K V T)) :
    plain (first ++ second) = plain first ++ plain second :=
  List.filter_append ..

@[simp] theorem markers_append (first second : List (Message K V T)) :
    markers (first ++ second) = markers first ++ markers second :=
  List.filter_append ..

@[simp] theorem deliveredOf_append (channel : Nat)
    (first second : List (Option Nat × Message K V T)) :
    deliveredOf channel (first ++ second) =
      deliveredOf channel first ++ deliveredOf channel second :=
  List.filterMap_append ..

theorem plain_epoch (merged : Option T) :
    plain (merged.map (Message.epoch (K := K) (V := V))).toList = [] := by
  cases merged with
  | none => rfl
  | some time => rfl

theorem markers_plain (messages : List (Message K V T)) :
    markers (plain messages) = markers messages := by
  simp only [markers, plain, List.filter_filter]
  congr 1
  funext message
  cases message <;> rfl

namespace Input

theorem queue_modify (input : Input K V T) (frontier : Option T)
    {channel : Nat} (linked : channel < input.receivers.length)
    (change : UpstreamState K V T → UpstreamState K V T)
    (turned : List (Message K V T) → List (Message K V T))
    (turns : ∀ upstream, (change upstream).receiver =
      turned upstream.receiver) :
    Input.queue { receivers := input.receivers.modify channel change
                  frontier := frontier } =
      Function.update input.queue channel (turned (input.queue channel)) := by
  funext other
  simp only [queue, List.getElem?_modify, Function.update_apply]
  by_cases same : channel = other
  · subst same
    simp [List.getElem?_eq_getElem linked, turns]
  · simp [same, Ne.symm same]

theorem queue_unlinked (input : Input K V T) {channel : Nat}
    (unlinked : input.receivers.length ≤ channel) :
    input.queue channel = [] := by
  simp [queue, List.getElem?_eq_none unlinked]

theorem queue_push (input : Input K V T) {channel : Nat}
    (linked : channel < input.receivers.length) (message : Message K V T) :
    (input.push channel message).queue =
      Function.update input.queue channel
        (input.queue channel ++ [message]) :=
  queue_modify input _ linked _ (fun queue => queue ++ [message])
    fun _ => rfl

theorem queue_pop (input : Input K V T) (frontier : Option T)
    {channel : Nat} (linked : channel < input.receivers.length)
    (change : UpstreamState K V T → UpstreamState K V T)
    (pops : ∀ upstream, (change upstream).receiver = upstream.receiver.tail)
    {message : Message K V T} {rest : List (Message K V T)}
    (head : input.queue channel = message :: rest) :
    Input.queue { receivers := input.receivers.modify channel change
                  frontier := frontier } =
      Function.update input.queue channel rest := by
  rw [queue_modify input frontier linked change List.tail pops, head]
  rfl

theorem queue_takeMarkers (input : Input K V T) (channel : Nat) :
    input.takeMarkers.2.queue channel = (input.queue channel).tail := by
  simp only [takeMarkers, queue, List.getElem?_map]
  cases input.receivers[channel]? with
  | none => rfl
  | some upstream => rfl

theorem queue_markers {input : Input K V T} {marker : Message K V T}
    (heads : ∀ upstream ∈ input.receivers,
      ∃ rest, upstream.receiver = marker :: rest) :
    ∀ channel < input.receivers.length,
      input.queue channel = marker :: input.takeMarkers.2.queue channel := by
  intro channel linked
  obtain ⟨rest, receiver⟩ := heads _ (List.getElem_mem linked)
  rw [queue_takeMarkers]
  simp [queue, linked, receiver]

end Input

/-! What one call takes off the channels: the head of one channel, nothing, or
one marker off every channel. -/

section

variable [MaybeTime T] [LT T] [DecidableLT T]

inductive Takes (input : Input K V T) :
    Option (Message K V T) → Input K V T → Prop
  | one {channel : Nat} {message : Message K V T}
      {rest : List (Message K V T)}
      {returned : Option (Message K V T)} {next : Input K V T}
      (served : input.next? = some channel)
      (linked : channel < input.receivers.length)
      (head : input.queue channel = message :: rest)
      (queues : next.queue = Function.update input.queue channel rest)
      (same : next.receivers.length = input.receivers.length)
      (unmarked : message.isMarker = false)
      (returns : plain returned.toList = plain [message]) :
      Takes input returned next
  | idle (served : input.next? = none)
      (waiting : input.receivers.length = 0 ∨
        ∃ channel < input.receivers.length, input.queue channel = []) :
      Takes input none input
  | every {marker : Message K V T} {next : Input K V T}
      (served : input.next? = none)
      (linked : 0 < input.receivers.length)
      (isMarker : marker.isMarker = true)
      (heads : ∀ channel < input.receivers.length,
        input.queue channel = marker :: next.queue channel)
      (same : next.receivers.length = input.receivers.length) :
      Takes input (some marker) next

theorem Input.queue_recvEpoch {input : Input K V T} {channel : Nat}
    {epoch : T} {rest : List (Message K V T)}
    (linked : channel < input.receivers.length)
    (head : input.queue channel = .epoch epoch :: rest) :
    (input.recvEpoch channel epoch).2.queue =
      Function.update input.queue channel rest :=
  queue_pop input _ linked
    (fun upstream => { upstream.pop with epoch := some epoch })
    (fun _ => rfl) head

theorem Received.takes {input next : Input K V T}
    {returned : Option (Message K V T)}
    (received : Received input returned next) :
    Takes input returned next := by
  cases received with
  | passed served linked head unmarked noEpoch =>
      have queues := Input.queue_pop input input.frontier linked
        UpstreamState.pop (fun _ => rfl) head
      exact .one served linked head queues (by simp) unmarked rfl
  | epoch served linked head =>
      exact .one served linked head (Input.queue_recvEpoch linked head) (by simp [Input.recvEpoch]) rfl
        (plain_epoch _)
  | idle stalled waiting =>
      refine .idle (Input.next?_eq_none.mpr stalled) ?_
      cases waiting with
      | inl unlinked => exact .inl (by simp [unlinked])
      | inr empty =>
          obtain ⟨upstream, member, empty⟩ := empty
          obtain ⟨channel, linked, rfl⟩ := List.mem_iff_getElem.mp member
          exact .inr ⟨channel, linked,
            by simpa [Input.queue, linked] using empty⟩
  | aligned stalled linked isMarker heads =>
      exact .every (Input.next?_eq_none.mpr stalled)
        (List.length_pos_of_ne_nil linked) isMarker
        (Input.queue_markers heads) (by simp [Input.takeMarkers])

end

namespace Input

theorem left_eq {before after : Input K V T} {channel : Nat}
    {taken : List (Message K V T)}
    (queue : before.queue channel = taken ++ after.queue channel) :
    before.left after channel = taken := by
  simp [left, queue]

theorem left_pop {before after : Input K V T} {channel : Nat}
    {message : Message K V T} {rest : List (Message K V T)}
    (head : before.queue channel = message :: rest)
    (queues : after.queue = Function.update before.queue channel rest) :
    before.left after = Function.update (fun _ => []) channel [message] := by
  funext other
  apply left_eq
  by_cases same : other = channel
  · subst same
    simp [head, queues]
  · simp [queues, same]

theorem split_pop {before after : Input K V T} {channel : Nat}
    {message : Message K V T} {rest : List (Message K V T)}
    (head : before.queue channel = message :: rest)
    (queues : after.queue = Function.update before.queue channel rest)
    (other : Nat) :
    before.queue other = before.left after other ++ after.queue other := by
  rw [left_pop head queues, queues]
  by_cases same : other = channel
  · subst same
    simp [head]
  · simp [same]

theorem left_markers {before after : Input K V T} {marker : Message K V T}
    (heads : ∀ channel < before.receivers.length,
      before.queue channel = marker :: after.queue channel)
    {channel : Nat} (linked : channel < before.receivers.length) :
    before.left after channel = [marker] :=
  left_eq (show _ = [marker] ++ _ from heads channel linked)

theorem split_markers {before after : Input K V T} {marker : Message K V T}
    (heads : ∀ channel < before.receivers.length,
      before.queue channel = marker :: after.queue channel)
    (same : after.receivers.length = before.receivers.length)
    (channel : Nat) :
    before.queue channel =
      before.left after channel ++ after.queue channel := by
  by_cases linked : channel < before.receivers.length
  · rw [left_markers heads linked]
    exact heads channel linked
  · have unlinked : before.receivers.length ≤ channel := by omega
    simp [left, queue_unlinked, unlinked, same]

end Input

end Malstrom.Channels
