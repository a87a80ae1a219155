import Malstrom.Channels.Epochs
import Malstrom.Data.Growing

namespace Malstrom.Channels

open Data MaybeTime

variable {K V T : Type}

/-! An input merges anew for every epoch, whether its frontier moves or not. -/

def Session.epochs (session : Session K V T) : List T :=
  (session.delivered.map Prod.snd).filterMap Message.epoch?

/-- An epoch is received of a channel which is, of all channels, alone with
the lowest last epoch, or while some channel has not had any. -/
def Session.Advances [LT T] (session : Session K V T) :
    Session.Event K V T → Prop
  | .send _ _ => True
  | .recv => ∀ channel epoch rest previous,
      session.input.next? = some channel →
      session.input.queue channel = .epoch epoch :: rest →
      lastEpoch (session.received channel) = some previous →
      (∀ other < session.channels,
        lastEpoch (session.received other) ≠ none) →
      previous < epoch ∧ ∀ other < session.channels, other ≠ channel →
        ∀ last ∈ lastEpoch (session.received other), previous < last

/-- Messages are sent on linked channels, and every epoch received advances. -/
def Session.advances [LT T] (session : Session K V T)
    (event : Session.Event K V T) : Prop :=
  session.sends event ∧ session.Advances event

section

variable [LinearOrder T]

theorem rising_iff {messages : List (Message K V T)} :
    Rising messages ↔
      (messages.filterMap Message.epoch?).Pairwise (· ≤ ·) := by
  rw [List.pairwise_filterMap]
  apply List.Pairwise.iff
  intro earlier later
  constructor
  · intro risen epoch isEpoch reached isReached
    exact risen epoch reached (Message.epoch?_eq_some.mp isEpoch)
      (Message.epoch?_eq_some.mp isReached)
  · rintro risen epoch reached rfl rfl
    exact risen epoch rfl reached rfl

instance (messages : List (Message K V T)) : Decidable (Rising messages) :=
  decidable_of_iff _ rising_iff.symm

variable [MaybeTime T]

theorem mergeTimestamps_eq_none (merges : MergesMin T)
    {times : List (Option T)} :
    mergeTimestamps times = none ↔ times = [] ∨ none ∈ times := by
  constructor
  · intro absent
    by_contra present
    rw [not_or] at present
    obtain ⟨merged, isMerged⟩ := mergeTimestamps_isSome merges present.1
      fun time member isNone => present.2 (isNone ▸ member)
    rw [absent] at isMerged
    cases isMerged
  · intro absent
    rw [Option.eq_none_iff_forall_ne_some]
    intro merged isMerged
    obtain ⟨attained, bound⟩ := (mergeTimestamps_eq_some merges).mp isMerged
    rcases absent with rfl | unset
    · cases attained
    · obtain ⟨value, isNone, -⟩ := bound none unset
      cases isNone

section

variable {receivers : List (UpstreamState K V T)} {channel : Nat}
  {before : UpstreamState K V T}

abbrev noted (receivers : List (UpstreamState K V T)) (channel : Nat)
    (epoch : T) : List (UpstreamState K V T) :=
  receivers.modify channel fun upstream =>
    { upstream.pop with epoch := some epoch }

theorem merged_lt_iff (merges : MergesMin T)
    {previous epoch merged reached : T}
    (old : mergeTimestamps (receivers.map UpstreamState.epoch) = some merged)
    (new : mergeTimestamps ((noted receivers channel epoch).map
      UpstreamState.epoch) = some reached)
    (found : receivers[channel]? = some before)
    (known : before.epoch = some previous) :
    merged < reached ↔ previous < epoch ∧
      ∀ (other : Nat) (upstream : UpstreamState K V T),
        receivers[other]? = some upstream → other ≠ channel →
        ∀ last ∈ upstream.epoch, previous < last := by
  obtain ⟨attained, bound⟩ := (mergeTimestamps_eq_some merges).mp old
  obtain ⟨attained', bound'⟩ := (mergeTimestamps_eq_some merges).mp new
  have least {other : Nat} {upstream : UpstreamState K V T} {last : T}
      (isOther : receivers[other]? = some upstream) (different : other ≠ channel)
      (isLast : upstream.epoch = some last) : reached ≤ last := by
    have later : (noted receivers channel epoch)[other]? = some upstream := by
      rw [List.getElem?_modify, isOther]
      simp [Ne.symm different]
    obtain ⟨value, isValue, below⟩ :=
      bound' _ (List.mem_map_of_mem (List.mem_of_getElem? later))
    obtain rfl := Option.some.inj (isLast.symm.trans isValue)
    exact below
  have leastNew : reached ≤ epoch := by
    have later : (noted receivers channel epoch)[channel]? =
        some { before.pop with epoch := some epoch } := by
      rw [List.getElem?_modify, found]
      simp
    obtain ⟨value, isValue, below⟩ :=
      bound' _ (List.mem_map_of_mem (List.mem_of_getElem? later))
    obtain rfl := Option.some.inj isValue
    exact below
  constructor
  · intro higher
    obtain ⟨upstream, member, isMin⟩ := List.mem_map.mp attained
    obtain ⟨other, isOther⟩ := List.mem_iff_getElem?.mp member
    have same : other = channel := by
      by_contra different
      exact absurd (least isOther different isMin) (not_le.mpr higher)
    subst same
    obtain rfl := Option.some.inj (found.symm.trans isOther)
    obtain rfl := Option.some.inj (known.symm.trans isMin)
    refine ⟨higher.trans_le leastNew, ?_⟩
    intro other upstream isUpstream different last isLast
    exact higher.trans_le (least isUpstream different isLast)
  · rintro ⟨higher, others⟩
    have behind : merged ≤ previous := by
      obtain ⟨value, isValue, below⟩ :=
        bound _ (List.mem_map_of_mem (List.mem_of_getElem? found))
      obtain rfl := Option.some.inj (known.symm.trans isValue)
      exact below
    apply lt_of_le_of_lt behind
    obtain ⟨upstream, member, isMin⟩ := List.mem_map.mp attained'
    obtain ⟨other, isOther⟩ := List.mem_iff_getElem?.mp member
    obtain ⟨earlier, isEarlier, rfl⟩ := modified isOther
    split at isMin
    next => exact (Option.some.inj isMin) ▸ higher
    next different =>
      exact others other earlier isEarlier (Ne.symm different) _ isMin

omit [LinearOrder T] [MaybeTime T] in
theorem map_epoch_modify {change : UpstreamState K V T → UpstreamState K V T}
    (keeps : ∀ upstream, (change upstream).epoch = upstream.epoch) :
    (receivers.modify channel change).map UpstreamState.epoch =
      receivers.map UpstreamState.epoch := by
  apply List.ext_getElem?
  intro other
  simp only [List.getElem?_map, List.getElem?_modify]
  cases receivers[other]? with
  | none => rfl
  | some upstream =>
      simp only [Option.map_some]
      split
      · exact congrArg some (keeps upstream)
      · rfl

/-- A merge is only missing where a channel has not had an epoch. -/
theorem merged_noted (merges : MergesMin T) (epoch : T)
    (linked : channel < receivers.length) :
    mergeTimestamps ((noted receivers channel epoch).map
        UpstreamState.epoch) ≠ none ↔
      ∀ (other : Nat) (upstream : UpstreamState K V T),
        receivers[other]? = some upstream → other ≠ channel →
        upstream.epoch ≠ none := by
  rw [Ne, mergeTimestamps_eq_none merges, not_or]
  constructor
  · rintro ⟨-, present⟩ other upstream isOther different unset
    apply present
    rw [← unset]
    have later : (noted receivers channel epoch)[other]? = some upstream := by
      rw [List.getElem?_modify, isOther]
      simp [Ne.symm different]
    exact List.mem_map_of_mem (List.mem_of_getElem? later)
  · intro others
    refine ⟨?_, ?_⟩
    · intro empty
      have lengths := congrArg List.length empty
      simp only [List.length_map, List.length_modify, List.length_nil]
        at lengths
      omega
    · intro unset
      obtain ⟨upstream, member, isNone⟩ := List.mem_map.mp unset
      obtain ⟨other, isOther⟩ := List.mem_iff_getElem?.mp member
      obtain ⟨earlier, isEarlier, rfl⟩ := modified isOther
      split at isNone
      next => cases isNone
      next different =>
        exact others other earlier isEarlier (Ne.symm different) isNone

end

/-! ### One call -/

/-- The epoch returned last is the merge of what the channels have had. -/
structure Session.Paced (width : Nat) (session : Session K V T) : Prop where
  tracked : session.Tracked width
  latest : session.epochs.getLast? =
    mergeTimestamps (session.input.receivers.map UpstreamState.epoch)

theorem Session.Paced.initial (merges : MergesMin T) {input : Input K V T}
    (unread : ∀ upstream ∈ input.receivers, upstream.epoch = none) :
    (Session.start input).Paced input.receivers.length := by
  refine ⟨.initial unread, ?_⟩
  symm
  change mergeTimestamps (input.receivers.map UpstreamState.epoch) = none
  rw [mergeTimestamps_eq_none merges]
  rcases input.receivers.eq_nil_or_concat with empty | ⟨rest, last, split⟩
  · exact .inl (by rw [empty]; rfl)
  · have member : last ∈ input.receivers := by
      rw [split, List.concat_eq_append]
      simp
    exact .inr (unread last member ▸ List.mem_map_of_mem member)

section

variable {width : Nat} {session : Session K V T}

omit [MaybeTime T] in
theorem Session.Tracked.heard (tracked : session.Tracked width) {channel : Nat} :
    (∀ other < session.channels, other ≠ channel →
        lastEpoch (session.received other) ≠ none) ↔
      ∀ (other : Nat) (upstream : UpstreamState K V T),
        session.input.receivers[other]? = some upstream → other ≠ channel →
        upstream.epoch ≠ none := by
  constructor
  · intro known other upstream found different
    rw [tracked.epochs other upstream found]
    exact known other (List.getElem?_eq_some_iff.mp found).1 different
  · intro known other inside different
    have found := List.getElem?_eq_getElem inside
    rw [← tracked.epochs other _ found]
    exact known other _ found different

theorem Session.Paced.recvEpoch (merges : MergesMin T)
    (paced : session.Paced width) {channel : Nat} {epoch : T}
    {rest : List (Message K V T)} (served : session.input.next? = some channel)
    (linked : channel < session.input.receivers.length)
    (head : session.input.queue channel = .epoch epoch :: rest)
    (next : Session K V T)
    (input : next.input = (session.input.recvEpoch channel epoch).2)
    (delivered : next.delivered = session.delivered ++
      (session.input.recvEpoch channel epoch).1.toList.map fun message =>
        (session.input.next?, message)) :
    next.epochs.getLast? =
        mergeTimestamps (next.input.receivers.map UpstreamState.epoch) ∧
      (next.epochs.Pairwise (· < ·) ↔
        session.epochs.Pairwise (· < ·) ∧ session.Advances .recv) := by
  have tracked := paced.tracked
  have receivers : next.input.receivers =
      noted session.input.receivers channel epoch := by
    rw [input]
    rfl
  have found := List.getElem?_eq_getElem linked
  have onRecord := tracked.epochs channel _ found
  have present := (merged_noted merges epoch linked).trans
    tracked.heard.symm
  cases merged : mergeTimestamps ((noted session.input.receivers channel
      epoch).map UpstreamState.epoch) with
  | none =>
      have returned : (session.input.recvEpoch channel epoch).1 = none := by
        simpa [Input.recvEpoch] using merged
      have same : next.epochs = session.epochs := by
        simp [Session.epochs, delivered, returned]
      have unheard : ¬ ∀ other < session.channels, other ≠ channel →
          lastEpoch (session.received other) ≠ none :=
        fun all => present.mpr all merged
      have before : mergeTimestamps
          (session.input.receivers.map UpstreamState.epoch) = none := by
        rw [mergeTimestamps_eq_none merges]
        refine .inr ?_
        by_contra set
        refine unheard (tracked.heard.mpr fun other upstream isOther _ unset => ?_)
        exact set (unset ▸ List.mem_map_of_mem (List.mem_of_getElem? isOther))
      refine ⟨?_, ?_⟩
      · rw [same, paced.latest, before, receivers, merged]
      · rw [same]
        refine (and_iff_left ?_).symm
        intro other time _ previous isServed isHead known all
        exact absurd (fun other inside _ => all other inside) unheard
  | some reached =>
      have returned : (session.input.recvEpoch channel epoch).1 =
          some (.epoch reached) := by
        simpa [Input.recvEpoch] using merged
      have more : next.epochs = session.epochs ++ [reached] := by
        simp [Session.epochs, delivered, returned, Message.epoch?]
      have others := present.mp (by simp [merged])
      refine ⟨by simp [more, receivers, merged], ?_⟩
      rw [more, pairwise_push, paced.latest]
      refine and_congr_right fun _ => ?_
      constructor
      · intro higher served' time rest' previous isServed isHead known all
        obtain rfl := Option.some.inj (served.symm.trans isServed)
        obtain ⟨rfl, rfl⟩ : epoch = time ∧ rest = rest' := by
          simpa [head] using isHead
        have kept : mergeTimestamps
            (session.input.receivers.map UpstreamState.epoch) ≠ none := by
          rw [Ne, mergeTimestamps_eq_none merges, not_or]
          refine ⟨List.ne_nil_of_mem (List.mem_map_of_mem
            (List.getElem_mem linked)), fun unset => ?_⟩
          obtain ⟨upstream, member, isNone⟩ := List.mem_map.mp unset
          obtain ⟨other, isOther⟩ := List.mem_iff_getElem?.mp member
          rw [tracked.epochs other upstream isOther] at isNone
          exact all other (List.getElem?_eq_some_iff.mp isOther).1 isNone
        obtain ⟨earlier, isEarlier⟩ := Option.ne_none_iff_exists'.mp kept
        obtain ⟨lower, alone⟩ := (merged_lt_iff merges isEarlier merged found
          (onRecord.trans known)).mp (higher earlier isEarlier)
        refine ⟨lower, fun other inside different last isLast => ?_⟩
        have isOther := List.getElem?_eq_getElem inside
        exact alone other _ isOther different last
          (tracked.epochs other _ isOther ▸ isLast)
      · intro advances earlier isEarlier
        obtain ⟨previous, known, -⟩ :=
          ((mergeTimestamps_eq_some merges).mp isEarlier).2 _
            (List.mem_map_of_mem (List.getElem_mem linked))
        refine (merged_lt_iff merges isEarlier merged found known).mpr ?_
        have all : ∀ other < session.channels,
            lastEpoch (session.received other) ≠ none := by
          intro other inside
          rcases eq_or_ne other channel with rfl | different
          · rw [← onRecord, known]
            exact Option.some_ne_none previous
          · exact others other inside different
        obtain ⟨lower, alone⟩ := advances channel epoch rest previous served head
          (onRecord.symm.trans known) all
        refine ⟨lower, fun other upstream isOther different last isLast => ?_⟩
        exact alone other (List.getElem?_eq_some_iff.mp isOther).1 different
          last (tracked.epochs other upstream isOther ▸ isLast)

theorem Session.Paced.step (merges : MergesMin T)
    {next : Session K V T} {event : Session.Event K V T}
    (paced : session.Paced width) (sends : session.sends event)
    (stepped : session.step event = .ok next) :
    next.Paced width ∧
      (next.epochs.Pairwise (· < ·) ↔
        session.epochs.Pairwise (· < ·) ∧ session.Advances event) := by
  have tracked := paced.tracked.step merges sends stepped
  have silent (times : next.input.receivers.map UpstreamState.epoch =
        session.input.receivers.map UpstreamState.epoch)
      (same : next.epochs = session.epochs)
      (vacuous : session.Advances event) :
      next.Paced width ∧
        (next.epochs.Pairwise (· < ·) ↔
          session.epochs.Pairwise (· < ·) ∧ session.Advances event) := by
    refine ⟨⟨tracked, ?_⟩, ?_⟩
    · rw [same, times]
      exact paced.latest
    · rw [same]
      exact (and_iff_left vacuous).symm
  cases event with
  | send channel message =>
      obtain rfl := by simpa [Session.step] using stepped
      refine silent ?_ rfl trivial
      exact map_epoch_modify fun _ => rfl
  | recv =>
      cases received : session.input.recv with
      | error panic => simp [Session.step, received] at stepped
      | ok result =>
          obtain ⟨returned, input⟩ := result
          simp only [Session.step, received, Except.ok.injEq] at stepped
          cases Input.recv_received received with
          | @passed channel message rest served reaches head unmarked noEpoch =>
              subst stepped
              refine silent ?_ ?_ ?_
              · exact map_epoch_modify fun _ => rfl
              · simp [Session.epochs, noEpoch]
              · intro other epoch _ previous isServed isHead
                obtain rfl := Option.some.inj (served.symm.trans isServed)
                rw [head] at isHead
                obtain ⟨rfl, -⟩ := List.cons.inj isHead
                cases noEpoch
          | @epoch channel epoch rest served reaches head =>
              have result := paced.recvEpoch merges served reaches head next
                (by rw [← stepped]) (by rw [← stepped])
              exact ⟨⟨tracked, result.1⟩, result.2⟩
          | idle stalled waiting =>
              subst stepped
              refine silent rfl (by simp [Session.epochs]) ?_
              intro channel epoch _ previous isServed
              rw [Input.next?_eq_none.mpr stalled] at isServed
              cases isServed
          | @aligned marker stalled some isMarker heads =>
              subst stepped
              have noEpoch : marker.epoch? = none := by
                cases marker <;> first | rfl | cases isMarker
              refine silent ?_ (by simp [Session.epochs, noEpoch]) ?_
              · simp [Input.takeMarkers, UpstreamState.pop]
              · intro channel epoch _ previous isServed
                rw [Input.next?_eq_none.mpr stalled] at isServed
                cases isServed

theorem Session.Paced.run (merges : MergesMin T)
    {events : List (Session.Event K V T)} (paced : session.Paced width)
    (follows : Follows Session.step Session.sends session events) :
    (replay Session.step session events).epochs.Pairwise (· < ·) ↔
      session.epochs.Pairwise (· < ·) ∧
        Follows Session.step Session.advances session events := by
  induction events generalizing session with
  | nil => simp [replay, Follows]
  | cons event rest induction =>
      simp only [Follows] at follows
      cases stepped : session.step event with
      | error panic => simp [stepped] at follows
      | ok next =>
          rw [stepped] at follows
          obtain ⟨sends, follows⟩ := follows
          obtain ⟨paced, advances⟩ := paced.step merges sends stepped
          simp only [replay, Follows, Session.advances, stepped]
          rw [induction paced follows, advances]
          tauto

end

/-- The epochs of an input increase as long as every epoch it receives, once
all channels have had one, is that of the only channel which lags behind. -/
theorem epochs_increase_iff (merges : MergesMin T) {input : Input K V T}
    (unread : ∀ upstream ∈ input.receivers, upstream.epoch = none)
    {events : List (Session.Event K V T)}
    (follows : Follows Session.step Session.sends (Session.start input)
      events) :
    (replay Session.step (Session.start input) events).epochs.Pairwise
        (· < ·) ↔
      Follows Session.step Session.advances (Session.start input) events := by
  rw [(Session.Paced.initial merges unread).run merges follows]
  exact and_iff_right List.Pairwise.nil

end

/-! Two channels; the left one is ahead. -/

def leadingTrace : List (Session.Event Nat Nat Nat) :=
  [.send 0 (.epoch 42), .recv, .send 1 (.epoch 15), .recv]

def bothChannels : Input Nat Nat Nat := Input.newUnlinked.link.link

theorem leadingTrace_advances :
    (∀ upstream ∈ bothChannels.receivers, upstream.epoch = none) ∧
    Follows Session.step Session.advances (Session.start bothChannels)
      (leadingTrace ++ [.send 1 (.epoch 30), .recv]) := by
  have unread : ∀ upstream ∈ bothChannels.receivers,
      upstream.epoch = none := by decide
  refine ⟨unread, ?_⟩
  refine (epochs_increase_iff mergesMin_nat unread ?_).mp ?_
  · decide
  · decide

/-- The left channel has its next epoch, and the old merge comes again. -/
theorem leader_repeats :
    let session := replay Session.step (Session.start bothChannels)
      (leadingTrace ++ [.send 0 (.epoch 50), .recv])
    Follows Session.step Session.sends (Session.start bothChannels)
        (leadingTrace ++ [.send 0 (.epoch 50), .recv]) ∧
      (∀ channel < session.channels, Rising (session.sent channel)) ∧
      ¬ session.epochs.Pairwise (· < ·) := by
  refine ⟨?_, ?_, ?_⟩
  · decide
  · decide
  · decide

end Malstrom.Channels
