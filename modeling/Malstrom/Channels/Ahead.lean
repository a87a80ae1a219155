import Mathlib.Data.List.TakeWhile
import Malstrom.Channels.Session

namespace Malstrom.Channels

variable {K V T : Type}

/-! An input as it would be if nothing behind the barriers had been sent. -/

/-- The messages in front of the first barrier. -/
def ahead (messages : List (Message K V T)) : List (Message K V T) :=
  messages.takeWhile fun message => !message.isBarrier

@[simp] theorem ahead_nil : ahead ([] : List (Message K V T)) = [] := rfl

@[simp] theorem ahead_barrier (rest : List (Message K V T)) :
    ahead (.absBarrier :: rest) = [] := rfl

theorem ahead_cons {message : Message K V T} (plain : message ≠ .absBarrier)
    (rest : List (Message K V T)) :
    ahead (message :: rest) = message :: ahead rest := by
  cases message <;> first | rfl | exact absurd rfl plain

theorem ahead_of_silent {messages : List (Message K V T)}
    (silent : .absBarrier ∉ messages) : ahead messages = messages := by
  refine List.takeWhile_eq_self_iff.mpr fun message member => ?_
  cases message <;> first | rfl | exact absurd member silent

theorem ahead_append_of_silent {first : List (Message K V T)}
    (silent : .absBarrier ∉ first) (second : List (Message K V T)) :
    ahead (first ++ second) = first ++ ahead second := by
  refine List.takeWhile_append_of_pos fun message member => ?_
  cases message <;> first | rfl | exact absurd member silent

/-- What is sent behind a barrier does not come ahead of it. -/
theorem ahead_append_of_barrier {first : List (Message K V T)}
    (barred : .absBarrier ∈ first) (second : List (Message K V T)) :
    ahead (first ++ second) = ahead first := by
  induction first with
  | nil => cases barred
  | cons message rest ih =>
      by_cases plain : message = .absBarrier
      · rw [plain]
        rfl
      · rw [List.cons_append, ahead_cons plain, ahead_cons plain,
          ih ((List.mem_cons.mp barred).resolve_left (Ne.symm plain))]

theorem canRecvUnaligned_ahead (messages : List (Message K V T)) :
    canRecvUnaligned (ahead messages) = canRecvUnaligned messages := by
  cases messages with
  | nil => rfl
  | cons message rest => cases message <;> rfl

namespace UpstreamState

def ahead (upstream : UpstreamState K V T) : UpstreamState K V T :=
  { upstream with receiver := Channels.ahead upstream.receiver }

theorem ahead_pop {upstream : UpstreamState K V T}
    {message : Message K V T} {rest : List (Message K V T)}
    (head : upstream.receiver = message :: rest)
    (plain : message ≠ .absBarrier) : upstream.ahead.pop = upstream.pop.ahead := by
  simp only [ahead, pop, head, ahead_cons plain, List.tail_cons]

end UpstreamState

namespace Input

/-- The input with every channel cut in front of its first barrier. -/
def ahead (input : Input K V T) : Input K V T :=
  { input with receivers := input.receivers.map UpstreamState.ahead }

@[simp] theorem length_ahead (input : Input K V T) :
    input.ahead.receivers.length = input.receivers.length := by
  simp [ahead]

@[simp] theorem queue_ahead (input : Input K V T) (channel : Nat) :
    input.ahead.queue channel = Channels.ahead (input.queue channel) := by
  simp only [queue, ahead, List.getElem?_map]
  cases input.receivers[channel]? <;> rfl

@[simp] theorem next?_ahead (input : Input K V T) :
    input.ahead.next? = input.next? := by
  simp only [next?, ahead, List.findIdx?_map]
  congr 1
  funext upstream
  exact canRecvUnaligned_ahead upstream.receiver

/-- A change of one channel which does not touch its barriers is the same
change of what is ahead of them. -/
theorem modify_ahead {receivers : List (UpstreamState K V T)} {channel : Nat}
    {change : UpstreamState K V T → UpstreamState K V T}
    (same : ∀ upstream, receivers[channel]? = some upstream →
      change upstream.ahead = (change upstream).ahead) :
    (receivers.map UpstreamState.ahead).modify channel change =
      (receivers.modify channel change).map UpstreamState.ahead := by
  refine List.ext_getElem? fun other => ?_
  simp only [List.getElem?_modify, List.getElem?_map]
  by_cases isChannel : channel = other
  · subst isChannel
    cases found : receivers[channel]? with
    | none => simp
    | some upstream => simp [same upstream found]
  · simp [isChannel]

theorem receiver_of_queue {input : Input K V T} {channel : Nat}
    {upstream : UpstreamState K V T}
    (found : input.receivers[channel]? = some upstream) :
    upstream.receiver = input.queue channel := by
  simp [queue, found]

variable [MaybeTime T] [LT T] [DecidableLT T]

theorem recvEpoch_ahead {input : Input K V T} {channel : Nat} {epoch : T}
    {rest : List (Message K V T)}
    (head : input.queue channel = .epoch epoch :: rest) :
    input.ahead.recvEpoch channel epoch =
      ((input.recvEpoch channel epoch).1,
        (input.recvEpoch channel epoch).2.ahead) := by
  have receivers : input.ahead.receivers.modify channel
      (fun upstream => { upstream.pop with epoch := some epoch }) =
      (input.receivers.modify channel fun upstream =>
        { upstream.pop with epoch := some epoch }).map
          UpstreamState.ahead := by
    refine modify_ahead fun upstream found => ?_
    have pops := UpstreamState.ahead_pop ((receiver_of_queue found).trans head)
      (by simp)
    exact congrArg (fun popped : UpstreamState K V T =>
      { popped with epoch := some epoch }) pops
  have epochs : ∀ upstreams : List (UpstreamState K V T),
      (upstreams.map UpstreamState.ahead).map UpstreamState.epoch =
        upstreams.map UpstreamState.epoch := by
    intro upstreams
    rw [List.map_map]
    rfl
  simp only [recvEpoch]
  rw [receivers, epochs]
  rfl

omit [MaybeTime T] [LT T] [DecidableLT T] in
theorem takeMarkers_ahead {input : Input K V T}
    (suspended : ∀ upstream ∈ input.receivers,
      ∃ rest, upstream.receiver = .suspendMarker :: rest) :
    input.ahead.takeMarkers =
      (input.takeMarkers.1, input.takeMarkers.2.ahead) := by
  have heads : (input.receivers.map UpstreamState.ahead).filterMap
      (fun upstream => upstream.receiver.head?) =
      input.receivers.filterMap fun upstream => upstream.receiver.head? := by
    rw [List.filterMap_map]
    refine List.filterMap_congr fun upstream member => ?_
    obtain ⟨rest, receiver⟩ := suspended upstream member
    simp [UpstreamState.ahead, receiver, ahead_cons]
  have pops : (input.receivers.map UpstreamState.ahead).map UpstreamState.pop =
      (input.receivers.map UpstreamState.pop).map UpstreamState.ahead := by
    rw [List.map_map, List.map_map]
    refine List.map_congr_left fun upstream member => ?_
    obtain ⟨rest, receiver⟩ := suspended upstream member
    exact UpstreamState.ahead_pop receiver (by simp)
  simp only [takeMarkers, ahead]
  rw [heads, pops]

/-- As long as no barrier is taken, an input serves what is ahead of them. -/
theorem recv_ahead {input next : Input K V T} {taken : Option (Message K V T)}
    (received : input.recv = .ok (taken, next))
    (plain : taken ≠ some .absBarrier) :
    input.ahead.recv = .ok (taken, next.ahead) := by
  cases recv_received received with
  | @passed channel message rest found linked head unmarked noEpoch =>
      have noBarrier : message ≠ .absBarrier := fun same =>
        plain (congrArg some same)
      have queue : input.ahead.queue channel = message :: Channels.ahead rest := by
        rw [queue_ahead, head, ahead_cons noBarrier]
      have pops : input.ahead.receivers.modify channel UpstreamState.pop =
          (input.receivers.modify channel UpstreamState.pop).map
            UpstreamState.ahead := by
        refine modify_ahead fun upstream isUpstream => ?_
        exact UpstreamState.ahead_pop
          ((receiver_of_queue isUpstream).trans head) noBarrier
      simp only [recv, next?_ahead, found, queue]
      cases message <;> simp_all [Message.epoch?, ahead]
  | @epoch channel epoch rest found linked head =>
      have queue : input.ahead.queue channel =
          .epoch epoch :: Channels.ahead rest := by
        rw [queue_ahead, head, ahead_cons (by simp)]
      simp only [recv, next?_ahead, found, queue, recvEpoch_ahead head]
  | idle stalled waiting =>
      have found := next?_eq_none.mpr stalled
      simp only [recv, next?_ahead, found, recvMarker]
      rcases waiting with unlinked | ⟨upstream, member, empty⟩
      · simp [ahead, unlinked]
      · have someEmpty : (input.ahead.receivers.any fun upstream =>
            upstream.receiver.isEmpty) = true := by
          refine List.any_eq_true.mpr
            ⟨upstream.ahead, List.mem_map_of_mem member, ?_⟩
          simp [UpstreamState.ahead, empty]
        rw [if_pos someEmpty]
  | @aligned marker stalled linked isMarker heads =>
      have suspended : marker = .suspendMarker := by
        cases marker <;> simp_all [Message.isMarker]
      subst suspended
      have found := next?_eq_none.mpr stalled
      have starts : ∀ upstream ∈ input.ahead.receivers,
          ∃ rest, upstream.receiver = .suspendMarker :: rest := by
        intro upstream member
        obtain ⟨original, isOriginal, rfl⟩ := List.mem_map.mp member
        obtain ⟨rest, receiver⟩ := heads original isOriginal
        exact ⟨Channels.ahead rest, by
          simp [UpstreamState.ahead, receiver, ahead_cons]⟩
      have full : ¬ (input.ahead.receivers.any fun upstream =>
          upstream.receiver.isEmpty) = true := by
        rw [List.any_eq_true]
        rintro ⟨upstream, member, empty⟩
        obtain ⟨rest, receiver⟩ := starts upstream member
        simp [receiver] at empty
      have nonempty : ¬ input.ahead.receivers.isEmpty = true := by
        simpa [ahead] using linked
      have unbarred : ¬ (input.ahead.receivers.all fun upstream =>
          peekApply Message.isBarrier upstream.receiver) = true := by
        obtain ⟨upstream, member⟩ := List.exists_mem_of_ne_nil _ linked
        rw [List.all_eq_true]
        intro barred
        have first := barred _ (List.mem_map_of_mem member)
        obtain ⟨rest, receiver⟩ := starts _ (List.mem_map_of_mem member)
        simp [receiver, peekApply, Message.isBarrier] at first
      have all : (input.ahead.receivers.all fun upstream =>
          peekApply Message.isSuspend upstream.receiver) = true := by
        rw [List.all_eq_true]
        intro upstream member
        obtain ⟨rest, receiver⟩ := starts upstream member
        simp [receiver, peekApply, Message.isSuspend]
      simp only [recv, next?_ahead, found, recvMarker]
      rw [if_neg full, if_neg nonempty, if_neg unbarred, if_pos all,
        takeMarkers_ahead heads, takeMarkers_eq linked heads]

/-- Where a barrier is taken, nothing is ahead of it. -/
theorem recv_barrier {input next : Input K V T}
    (received : input.recv = .ok (some .absBarrier, next)) :
    input.ahead.recv = .ok (none, input.ahead) ∧
      ∀ channel, input.ahead.queue channel = [] := by
  generalize isTaken : some Message.absBarrier = taken at received
  cases recv_received received with
  | passed found linked head unmarked noEpoch =>
      obtain rfl := Option.some.inj isTaken
      simp [Message.isMarker] at unmarked
  | @epoch channel epoch rest found linked head =>
      simp only [recvEpoch] at isTaken
      cases merged : MaybeTime.mergeTimestamps ((input.receivers.modify channel
          fun upstream => { upstream.pop with epoch := some epoch }).map
            UpstreamState.epoch) <;> simp [merged] at isTaken
  | idle => cases isTaken
  | aligned stalled linked isMarker heads =>
      obtain rfl := Option.some.inj isTaken
      have empty : ∀ upstream ∈ input.ahead.receivers,
          upstream.receiver = [] := by
        intro upstream member
        obtain ⟨original, isOriginal, rfl⟩ := List.mem_map.mp member
        obtain ⟨rest, receiver⟩ := heads original isOriginal
        simp [UpstreamState.ahead, receiver]
      constructor
      · have found := next?_eq_none.mpr stalled
        obtain ⟨upstream, member⟩ := List.exists_mem_of_ne_nil _ linked
        have someEmpty : (input.ahead.receivers.any fun upstream =>
            upstream.receiver.isEmpty) = true := by
          refine List.any_eq_true.mpr
            ⟨upstream.ahead, List.mem_map_of_mem member, ?_⟩
          simp [empty _ (List.mem_map_of_mem member)]
        simp only [recv, next?_ahead, found, recvMarker]
        rw [if_pos someEmpty]
      · intro channel
        by_cases inRange : channel < input.ahead.receivers.length
        · have first := empty _ (List.getElem_mem inRange)
          simp only [queue, List.getElem?_eq_getElem inRange, first]
        · exact queue_unlinked _ (by omega)

end Input

end Malstrom.Channels
