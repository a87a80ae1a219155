import Malstrom.Channels.Epochs
import Malstrom.Data.Sealed

namespace Malstrom

open Data

namespace MaybeTime

variable {T : Type} [MaybeTime T]

/-- A merge is the last time only if both times are. -/
def MergesLast (last : T) : Prop :=
  ∀ left right, tryMerge left right = some last → left = last ∧ right = last

theorem mergeTimestamps_eq_last {last : T} (merges : MergesLast last)
    {times : List (Option T)} (merged : mergeTimestamps times = some last) :
    ∀ time ∈ times, time = some last := by
  cases times with
  | nil => cases merged
  | cons first rest =>
      induction rest generalizing first with
      | nil =>
          intro time member
          rw [List.mem_singleton.mp member]
          exact merged
      | cons other rest ih =>
          cases other with
          | none => cases merged
          | some other =>
              rw [mergeTimestamps_cons_some] at merged
              have all := ih _ merged
              obtain ⟨earlier, rfl, isLast⟩ :=
                Option.bind_eq_some_iff.mp (all _ (.head _))
              obtain ⟨rfl, rfl⟩ := merges earlier other isLast
              intro time member
              rcases List.mem_cons.mp member with rfl | later
              · rfl
              · rcases List.mem_cons.mp later with rfl | behind
                · rfl
                · exact all time (.tail _ behind)

end MaybeTime

namespace Message

variable {K V T : Type} [DecidableEq T]

def isEpoch (time : T) : Message K V T → Bool
  | .epoch reached => decide (reached = time)
  | _ => false

omit [DecidableEq T] in
def isData (message : Message K V T) : Bool := message.data?.isSome

theorem isEpoch_iff {time : T} {message : Message K V T} :
    message.isEpoch time = true ↔ message = .epoch time := by
  cases message <;> simp [isEpoch]

end Message

namespace Channels

open MaybeTime

variable {K V T : Type}

/-! An input whose channels have come to the last time: nothing of value is in
them any more. -/

abbrev Ends [DecidableEq T] (last : T) (messages : List (Message K V T)) :
    Prop :=
  Sealed (Message.isEpoch last) Message.isData messages

variable {last : T}

/-- What an input knows of the last time, it has received on every channel. -/
structure Input.Informed (last : T) (input : Input K V T)
    (received : Nat → List (Message K V T))
    (taken : List (Message K V T)) : Prop where
  epochs : ∀ (channel : Nat) (upstream : UpstreamState K V T),
    input.receivers[channel]? = some upstream →
    upstream.epoch = some last → .epoch last ∈ received channel
  frontier : input.frontier = some last →
    ∀ channel < input.receivers.length, .epoch last ∈ received channel
  taken : .epoch last ∈ taken →
    ∀ channel < input.receivers.length, .epoch last ∈ received channel

section

variable [MaybeTime T] [LT T] [DecidableLT T] {input next : Input K V T}
  {received : Nat → List (Message K V T)} {taken : List (Message K V T)}
  {returned : Option (Message K V T)}

omit [MaybeTime T] [LT T] [DecidableLT T] in
theorem Input.Informed.keep (informed : input.Informed last received taken)
    {more : Nat → List (Message K V T)}
    (epochs : ∀ (channel : Nat) (upstream : UpstreamState K V T),
      next.receivers[channel]? = some upstream →
        ∃ before, input.receivers[channel]? = some before ∧
          upstream.epoch = before.epoch)
    (frontier : next.frontier = input.frontier)
    (same : next.receivers.length = input.receivers.length)
    (noEpoch : ∀ message ∈ returned, message.epoch? = none) :
    next.Informed last (fun channel => received channel ++ more channel)
      (taken ++ returned.toList) where
  epochs channel upstream found isLast := by
    obtain ⟨before, isBefore, equal⟩ := epochs channel upstream found
    exact List.mem_append_left _
      (informed.epochs channel before isBefore (equal ▸ isLast))
  frontier isLast channel linked :=
    List.mem_append_left _ (informed.frontier (frontier ▸ isLast) channel
      (same ▸ linked))
  taken member channel linked := by
    rcases List.mem_append.mp member with earlier | now
    · exact List.mem_append_left _ (informed.taken earlier channel
        (same ▸ linked))
    · have none := noEpoch _ (Option.mem_toList.mp now)
      cases none

theorem Input.Informed.recv (merges : MergesLast last)
    (informed : input.Informed last received taken)
    (receives : input.recv = .ok (returned, next)) :
    next.Informed last
      (fun channel => received channel ++ input.left next channel)
      (taken ++ returned.toList) := by
  cases Input.recv_received receives with
  | passed served linked head unmarked noEpoch =>
      refine informed.keep (fun channel upstream found => ?_) rfl (by simp)
        (by simpa using noEpoch)
      obtain ⟨before, isBefore, rfl⟩ := modified found
      exact ⟨before, isBefore, by split <;> rfl⟩
  | @epoch channel epoch rest served linked head =>
      have left := Input.left_pop head (Input.queue_recvEpoch linked head)
      -- every channel whose epoch is the last one has received it
      have epochs : ∀ other upstream,
          (input.recvEpoch channel epoch).2.receivers[other]? = some upstream →
          upstream.epoch = some last → .epoch last ∈ received other ++
            input.left (input.recvEpoch channel epoch).2 other := by
        intro other upstream found isLast
        obtain ⟨before, isBefore, rfl⟩ := modified found
        split at isLast
        next same =>
          subst same
          obtain rfl := Option.some.inj isLast
          simp [left]
        next =>
          exact List.mem_append_left _
            (informed.epochs other before isBefore isLast)
      have merged (isLast : mergeTimestamps
          ((input.recvEpoch channel epoch).2.receivers.map
            UpstreamState.epoch) = some last) (other : Nat)
          (inside : other <
            (input.recvEpoch channel epoch).2.receivers.length) :
          .epoch last ∈ received other ++
            input.left (input.recvEpoch channel epoch).2 other := by
        refine epochs other _ (List.getElem?_eq_getElem inside) ?_
        exact mergeTimestamps_eq_last merges isLast _
          (List.mem_map_of_mem (List.getElem_mem inside))
      have same : (input.recvEpoch channel epoch).2.receivers.length =
          input.receivers.length := by
        simp [Input.recvEpoch]
      refine ⟨epochs, fun isLast other inside => ?_, fun member other inside => ?_⟩
      · simp only [Input.recvEpoch] at isLast
        split at isLast
        next =>
          exact List.mem_append_left _
            (informed.frontier isLast other (same ▸ inside))
        next reached isMerged =>
          split at isLast
          next =>
            obtain rfl := Option.some.inj isLast
            exact merged isMerged other inside
          next before isFrontier =>
            split at isLast
            next =>
              obtain rfl := Option.some.inj isLast
              exact merged isMerged other inside
            next =>
              exact List.mem_append_left _ (informed.frontier
                (isFrontier.trans isLast) other (same ▸ inside))
      · rcases List.mem_append.mp member with earlier | now
        · exact List.mem_append_left _ (informed.taken earlier other
            (same ▸ inside))
        · refine merged ?_ other inside
          have isEpoch := Option.mem_toList.mp now
          simpa [Input.recvEpoch] using isEpoch
  | idle =>
      exact informed.keep (fun _ upstream found => ⟨upstream, found, rfl⟩) rfl
        rfl (by simp)
  | @aligned marker stalled linked isMarker heads =>
      refine informed.keep (fun channel upstream found => ?_) rfl
        (by simp [Input.takeMarkers]) fun message isReturned => ?_
      · simp only [Input.takeMarkers, List.getElem?_map,
          Option.map_eq_some_iff] at found
        obtain ⟨before, isBefore, rfl⟩ := found
        exact ⟨before, isBefore, rfl⟩
      · obtain rfl := Option.some.inj isReturned
        cases marker <;> first | rfl | cases isMarker

theorem Input.Informed.ends [DecidableEq T]
    (informed : input.Informed last received taken)
    (receives : input.recv = .ok (returned, next))
    (channels : ∀ channel < input.receivers.length,
      Ends last (received channel ++ input.queue channel))
    (ends : Ends last taken) : Ends last (taken ++ returned.toList) := by
  have push {message : Message K V T} {channel : Nat}
      (linked : channel < input.receivers.length)
      (queued : message.isData = true → message ∈ input.queue channel) :
      Ends last (taken ++ [message]) := by
    refine ends.push fun isData earlier member => ?_
    cases isLast : earlier.isEpoch last with
    | false => rfl
    | true =>
        obtain rfl := Message.isEpoch_iff.mp isLast
        have silent := (channels channel linked).behind
          (informed.taken member channel linked) isLast message (queued isData)
        rw [isData] at silent
        cases silent
  cases Input.recv_received receives with
  | passed served linked head =>
      exact push linked fun _ => head ▸ List.mem_cons_self
  | epoch served linked head =>
      refine ends.pushAll fun message member => ?_
      simp only [Input.recvEpoch, Option.mem_toList,
        Option.map_eq_some_iff] at member
      obtain ⟨_, -, rfl⟩ := member
      rfl
  | idle => simpa using ends
  | @aligned marker stalled linked isMarker heads =>
      refine ends.pushAll fun message member => ?_
      obtain rfl := List.mem_singleton.mp member
      cases message <;> first | rfl | cases isMarker

end

end Channels

end Malstrom
