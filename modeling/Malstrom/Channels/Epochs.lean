import Malstrom.Channels.Session

namespace Malstrom.Channels

open Data MaybeTime

variable {K V T : Type}

/-! What epochs promise, and that merging channels keeps the promise. -/

def lastEpoch (messages : List (Message K V T)) : Option T :=
  (messages.filterMap Message.epoch?).getLast?

/-- No record with a timestamp up to an epoch follows it. -/
def Promise [LT T] (messages : List (Message K V T)) : Prop :=
  messages.Pairwise fun earlier later => ∀ epoch record,
    earlier = .epoch epoch → later = .data record → epoch < record.timestamp

def Rising [LE T] (messages : List (Message K V T)) : Prop :=
  messages.Pairwise fun earlier later => ∀ epoch reached,
    earlier = .epoch epoch → later = .epoch reached → epoch ≤ reached

def Session.sends (session : Session K V T) : Session.Event K V T → Prop
  | .send channel _ => channel < session.channels
  | .recv => True

theorem lastEpoch_append_epoch (messages : List (Message K V T)) (epoch : T) :
    lastEpoch (messages ++ [.epoch epoch]) = some epoch := by
  simp [lastEpoch, Message.epoch?]

theorem lastEpoch_append_other (messages : List (Message K V T))
    {message : Message K V T} (noEpoch : message.epoch? = none) :
    lastEpoch (messages ++ [message]) = lastEpoch messages := by
  simp [lastEpoch, noEpoch]

theorem mem_of_lastEpoch {messages : List (Message K V T)} {epoch : T}
    (last : lastEpoch messages = some epoch) : .epoch epoch ∈ messages := by
  obtain ⟨message, member, isEpoch⟩ :=
    List.mem_filterMap.mp (List.mem_of_getLast? last)
  cases message <;> simp_all [Message.epoch?]

theorem Promise.follows [LT T] {earlier later : List (Message K V T)}
    {epoch : T} {record : DataMessage K V T}
    (promise : Promise (earlier ++ .data record :: later))
    (last : lastEpoch earlier = some epoch) : epoch < record.timestamp :=
  (List.pairwise_append.mp promise).2.2 _ (mem_of_lastEpoch last) _
    List.mem_cons_self _ _ rfl rfl

theorem Rising.follows [LE T] {earlier later : List (Message K V T)}
    {epoch reached : T} (rising : Rising (earlier ++ .epoch reached :: later))
    (last : lastEpoch earlier = some epoch) : epoch ≤ reached :=
  (List.pairwise_append.mp rising).2.2 _ (mem_of_lastEpoch last) _
    List.mem_cons_self _ _ rfl rfl

theorem Promise.snoc [LT T] {messages : List (Message K V T)}
    {message : Message K V T} (promise : Promise messages)
    (follows : ∀ epoch record, .epoch epoch ∈ messages →
      message = .data record → epoch < record.timestamp) :
    Promise (messages ++ [message]) := by
  refine List.pairwise_append.mpr ⟨promise, List.pairwise_singleton _ _, ?_⟩
  intro earlier member later isLast epoch record isEpoch isRecord
  obtain rfl := List.mem_singleton.mp isLast
  exact follows epoch record (isEpoch ▸ member) isRecord

theorem Promise.earlier [LT T] {earlier later : List (Message K V T)}
    (promise : Promise (earlier ++ later)) : Promise earlier :=
  (List.pairwise_append.mp promise).1

theorem Rising.earlier [LE T] {earlier later : List (Message K V T)}
    (rising : Rising (earlier ++ later)) : Rising earlier :=
  (List.pairwise_append.mp rising).1

theorem modified {receivers : List (UpstreamState K V T)} {channel other : Nat}
    {change : UpstreamState K V T → UpstreamState K V T}
    {upstream : UpstreamState K V T}
    (found : (receivers.modify channel change)[other]? = some upstream) :
    ∃ before, receivers[other]? = some before ∧
      upstream = if channel = other then change before else before := by
  rw [List.getElem?_modify] at found
  obtain ⟨before, isBefore, rfl⟩ := Option.map_eq_some_iff.mp found
  exact ⟨before, isBefore, by split <;> rfl⟩

variable [LinearOrder T]

/-- The times an operator has on record for its channels are the last epochs
it has received, and no epoch it has seen is ahead of any of them. -/
structure Session.Tracked (width : Nat) (session : Session K V T) : Prop where
  channels : session.channels = width
  split : ∀ channel, session.sent channel =
    session.received channel ++ session.input.queue channel
  epochs : ∀ channel upstream,
    session.input.receivers[channel]? = some upstream →
    upstream.epoch = lastEpoch (session.received channel)
  behind : (∀ channel < width, Rising (session.sent channel)) →
    ∀ epoch, .epoch epoch ∈ session.delivered.map Prod.snd →
    ∀ channel < width, ∃ last,
      lastEpoch (session.received channel) = some last ∧ epoch ≤ last
  promise : (∀ channel < width, Rising (session.sent channel)) →
    (∀ channel < width, Promise (session.sent channel)) →
    Promise (session.delivered.map Prod.snd)

theorem Session.Tracked.send {width : Nat} {session : Session K V T}
    (tracked : session.Tracked width) {channel : Nat}
    (reaches : channel < session.channels) (message : Message K V T) :
    Session.Tracked width { session with
      input := session.input.push channel message
      sent := Function.update session.sent channel
        (session.sent channel ++ [message]) } := by
  have queues := Input.queue_push session.input reaches message
  have grown : ∀ other, ∃ more, Function.update session.sent channel
      (session.sent channel ++ [message]) other = session.sent other ++ more := by
    intro other
    by_cases same : other = channel
    · subst same; exact ⟨[message], by simp⟩
    · exact ⟨[], by simp [same]⟩
  have risen : (∀ other < width, Rising (Function.update session.sent channel
      (session.sent channel ++ [message]) other)) →
      ∀ other < width, Rising (session.sent other) := by
    intro rising other reaches
    obtain ⟨more, grown⟩ := grown other
    exact (grown ▸ rising other reaches).earlier
  refine ⟨?_, ?_, ?_, fun rising => tracked.behind (risen rising), ?_⟩
  · simpa [Session.channels, Input.push] using tracked.channels
  · intro other
    simp only [queues, Function.update_apply]
    split
    next same => simp [same, tracked.split channel]
    next => exact tracked.split other
  · intro other upstream found
    obtain ⟨before, isBefore, rfl⟩ := modified found
    have tracks := tracked.epochs other before isBefore
    split
    next => exact tracks
    next => exact tracks
  · intro rising promised
    refine tracked.promise (risen rising) fun other reaches => ?_
    obtain ⟨more, grown⟩ := grown other
    have promised : Promise (Function.update session.sent channel
      (session.sent channel ++ [message]) other) := promised other reaches
    exact (grown ▸ promised).earlier

theorem Session.Tracked.initial {input : Input K V T}
    (unread : ∀ upstream ∈ input.receivers, upstream.epoch = none) :
    (Session.start input).Tracked input.receivers.length := by
  refine ⟨rfl, ?_, ?_, ?_, ?_⟩
  · intro channel
    simp [start]
  · intro channel upstream found
    exact unread upstream (List.mem_of_getElem? found)
  · intro rising epoch member
    simp [start] at member
  · intro rising promised
    exact List.Pairwise.nil

variable [MaybeTime T]

/-- The time returned for an epoch is the earliest of the last epochs. -/
theorem recvEpoch_eq_some (merges : MergesMin T) {input : Input K V T}
    {channel : Nat} {epoch merged : T}
    (returned : (input.recvEpoch channel epoch).1 = some (.epoch merged)) :
    (∃ other : Nat, ∃ upstream : UpstreamState K V T,
      (input.recvEpoch channel epoch).2.receivers[other]? = some upstream ∧
        upstream.epoch = some merged) ∧
    ∀ (other : Nat) (upstream : UpstreamState K V T),
      (input.recvEpoch channel epoch).2.receivers[other]? = some upstream →
        ∃ last, upstream.epoch = some last ∧ merged ≤ last := by
  have isMerged : mergeTimestamps ((input.recvEpoch channel epoch).2.receivers.map
      UpstreamState.epoch) = some merged := by
    simpa [Input.recvEpoch] using returned
  obtain ⟨attained, bound⟩ := (mergeTimestamps_eq_some merges).mp isMerged
  constructor
  · obtain ⟨upstream, member, isMin⟩ := List.mem_map.mp attained
    obtain ⟨other, found⟩ := List.mem_iff_getElem?.mp member
    exact ⟨other, upstream, found, isMin⟩
  · intro other upstream found
    exact bound _ (List.mem_map_of_mem (List.mem_of_getElem? found))

def Session.afterRecv (session : Session K V T)
    (returned : Option (Message K V T)) (next : Input K V T) : Session K V T :=
  { session with
    input := next
    received := fun channel =>
      session.received channel ++ session.input.left next channel
    delivered := session.delivered ++
      returned.toList.map fun message => (session.input.next?, message) }

omit [MaybeTime T] in
/-- A message which is no epoch leaves the times of all channels as they are. -/
theorem Session.Tracked.keep {width : Nat} {session : Session K V T}
    {message : Message K V T} {next : Input K V T}
    (tracked : session.Tracked width) (noEpoch : message.epoch? = none)
    (lengths : next.receivers.length = width)
    (split : ∀ channel, session.input.queue channel =
      session.input.left next channel ++ next.queue channel)
    (known : ∀ channel < width, lastEpoch (session.received channel ++
        session.input.left next channel) =
      lastEpoch (session.received channel))
    (epochs : ∀ (channel : Nat) (upstream : UpstreamState K V T),
      next.receivers[channel]? = some upstream →
        ∃ before, session.input.receivers[channel]? = some before ∧
          upstream.epoch = before.epoch)
    (follows : (∀ channel < width, Rising (session.sent channel)) →
      (∀ channel < width, Promise (session.sent channel)) →
        ∀ epoch record, .epoch epoch ∈ session.delivered.map Prod.snd →
          message = .data record → epoch < record.timestamp) :
    (session.afterRecv (some message) next).Tracked width := by
  refine ⟨lengths, fun channel => ?_, fun channel upstream found => ?_,
    fun rising epoch member channel linked => ?_, fun rising promised => ?_⟩
  · rw [Session.afterRecv, tracked.split channel, List.append_assoc, ← split]
  · obtain ⟨before, isBefore, same⟩ := epochs channel upstream found
    have linked : channel < width :=
      tracked.channels ▸ (List.getElem?_eq_some_iff.mp isBefore).1
    rw [same, tracked.epochs channel before isBefore]
    exact (known channel linked).symm
  · have other : .epoch epoch ≠ message := by
      rintro rfl
      simp [Message.epoch?] at noEpoch
    obtain ⟨last, isLast, behind⟩ := tracked.behind rising epoch
      (by simpa [Session.afterRecv, other] using member) channel linked
    exact ⟨last, (known channel linked).trans isLast, behind⟩
  · simp only [Session.afterRecv, Option.toList_some, List.map_cons,
      List.map_nil, List.map_append]
    exact (tracked.promise rising promised).snoc (follows rising promised)

omit [MaybeTime T] in
/-- A record or any other message which no channel waits with. -/
theorem Session.Tracked.pass {width : Nat} {session : Session K V T}
    {channel : Nat} {message : Message K V T} {rest : List (Message K V T)}
    (tracked : session.Tracked width)
    (reaches : channel < session.input.receivers.length)
    (head : session.input.queue channel = message :: rest)
    (noEpoch : message.epoch? = none) :
    (session.afterRecv (some message) { session.input with
      receivers := session.input.receivers.modify channel
        UpstreamState.pop }).Tracked width := by
  have queues := Input.queue_pop session.input session.input.frontier
    reaches UpstreamState.pop (fun _ => rfl) head
  have linked : channel < width := tracked.channels ▸ reaches
  refine tracked.keep noEpoch ?_ (Input.split_pop head queues)
    (fun other _ => ?_) (fun other upstream found => ?_) ?_
  · simpa [Session.channels] using tracked.channels
  · rw [Input.left_pop head queues, Function.update_apply]
    split
    next => exact lastEpoch_append_other _ noEpoch
    next => rw [List.append_nil]
  · obtain ⟨before, isBefore, rfl⟩ := modified found
    exact ⟨before, isBefore, by split <;> rfl⟩
  · rintro rising promised epoch record member rfl
    obtain ⟨last, isLast, behind⟩ :=
      tracked.behind rising epoch member channel linked
    have promise := promised channel linked
    rw [tracked.split channel, head] at promise
    exact lt_of_le_of_lt behind (promise.follows isLast)

omit [MaybeTime T] in
theorem Session.Tracked.align {width : Nat} {session : Session K V T}
    {marker : Message K V T} (tracked : session.Tracked width)
    (isMarker : marker.isMarker = true)
    (heads : ∀ upstream ∈ session.input.receivers,
      ∃ rest, upstream.receiver = marker :: rest) :
    (session.afterRecv (some marker)
      session.input.takeMarkers.2).Tracked width := by
  have heads := Input.queue_markers heads
  have noEpoch : marker.epoch? = none := by
    cases marker <;> simp_all [Message.isMarker, Message.epoch?]
  have lengths : session.input.takeMarkers.2.receivers.length =
      session.input.receivers.length := by simp [Input.takeMarkers]
  have channels : session.input.receivers.length = width := tracked.channels
  refine tracked.keep noEpoch (lengths.trans channels)
    (Input.split_markers heads lengths) (fun other reaches => ?_)
    (fun other upstream found => ?_) ?_
  · rw [Input.left_markers heads (by omega)]
    exact lastEpoch_append_other _ noEpoch
  · simp only [Input.takeMarkers, List.getElem?_map,
      Option.map_eq_some_iff] at found
    obtain ⟨before, isBefore, rfl⟩ := found
    exact ⟨before, isBefore, rfl⟩
  · rintro rising promised epoch record member rfl
    simp [Message.isMarker] at isMarker

/-- The time of an epoch gets on record for its channel. -/
theorem Session.Tracked.epochs_recvEpoch {width : Nat} {session : Session K V T}
    {channel : Nat} {epoch : T} {rest : List (Message K V T)}
    (tracked : session.Tracked width)
    (reaches : channel < session.input.receivers.length)
    (head : session.input.queue channel = .epoch epoch :: rest)
    (other : Nat) (upstream : UpstreamState K V T)
    (found : (session.input.recvEpoch channel epoch).2.receivers[other]? =
      some upstream) :
    upstream.epoch = lastEpoch (session.received other ++
      session.input.left (session.input.recvEpoch channel epoch).2 other) := by
  obtain ⟨before, isBefore, rfl⟩ := modified found
  rw [Input.left_pop head (Input.queue_recvEpoch reaches head),
    Function.update_apply]
  by_cases same : channel = other
  · subst same
    simp [lastEpoch_append_epoch]
  · simpa [same, Ne.symm same] using tracked.epochs other before isBefore

/-- Where its epochs do not decrease the last one of no channel does. -/
theorem Session.Tracked.rises {width : Nat} {session : Session K V T}
    {channel : Nat} {epoch : T} {rest : List (Message K V T)}
    (tracked : session.Tracked width)
    (reaches : channel < session.input.receivers.length)
    (head : session.input.queue channel = .epoch epoch :: rest)
    (rising : ∀ other < width, Rising (session.sent other)) (other : Nat)
    {last : T} (isLast : lastEpoch (session.received other) = some last) :
    ∃ later, lastEpoch (session.received other ++
      session.input.left (session.input.recvEpoch channel epoch).2 other) =
        some later ∧ last ≤ later := by
  rw [Input.left_pop head (Input.queue_recvEpoch reaches head),
    Function.update_apply]
  split
  next same =>
    subst same
    refine ⟨epoch, lastEpoch_append_epoch _ _, ?_⟩
    have rising := rising other (tracked.channels ▸ reaches)
    rw [tracked.split other, head] at rising
    exact rising.follows isLast
  next => exact ⟨last, by simpa using isLast, le_refl last⟩

theorem Session.Tracked.advance {width : Nat} {session : Session K V T}
    {channel : Nat} {epoch : T} {rest : List (Message K V T)}
    (merges : MergesMin T) (tracked : session.Tracked width)
    (reaches : channel < session.input.receivers.length)
    (head : session.input.queue channel = .epoch epoch :: rest) :
    (session.afterRecv (session.input.recvEpoch channel epoch).1
      (session.input.recvEpoch channel epoch).2).Tracked width := by
  have queues := Input.queue_recvEpoch reaches head
  have epochs := tracked.epochs_recvEpoch reaches head
  have lengths : (session.input.recvEpoch channel epoch).2.receivers.length =
      width := by
    simpa [Session.channels, Input.recvEpoch] using tracked.channels
  refine ⟨lengths, fun other => ?_, epochs, ?_, ?_⟩
  · rw [Session.afterRecv, tracked.split other, List.append_assoc,
      ← Input.split_pop head queues]
  · intro rising time member other linked
    simp only [Session.afterRecv, List.map_append, List.mem_append] at member
    cases member with
    | inl earlier =>
        obtain ⟨last, isLast, behind⟩ :=
          tracked.behind rising time earlier other linked
        obtain ⟨later, isLater, rises⟩ :=
          tracked.rises reaches head rising other isLast
        exact ⟨later, isLater, le_trans behind rises⟩
    | inr now =>
        have returned : (session.input.recvEpoch channel epoch).1 =
            some (.epoch time) := by simpa using now
        have found := List.getElem?_eq_getElem (lengths ▸ linked)
        obtain ⟨last, isLast, bound⟩ :=
          (recvEpoch_eq_some merges returned).2 other _ found
        exact ⟨last, (epochs other _ found) ▸ isLast, bound⟩
  · intro rising promised
    have promise := tracked.promise rising promised
    simp only [Session.afterRecv, List.map_append, List.map_map]
    cases returned : (session.input.recvEpoch channel epoch).1 with
    | none => simpa [returned] using promise
    | some message =>
        apply promise.snoc
        rintro earlier record member rfl
        simp [Input.recvEpoch] at returned

theorem Session.Tracked.receive {width : Nat} {session : Session K V T}
    {returned : Option (Message K V T)} {next : Input K V T}
    (merges : MergesMin T) (tracked : session.Tracked width)
    (received : Received session.input returned next) :
    Session.Tracked width { session with
      input := next
      received := fun channel =>
        session.received channel ++ session.input.left next channel
      delivered := session.delivered ++
        returned.toList.map fun message =>
          (session.input.next?, message) } := by
  cases received with
  | passed served reaches head unmarked noEpoch =>
      exact tracked.pass reaches head noEpoch
  | epoch served reaches head => exact tracked.advance merges reaches head
  | idle stalled waiting => simpa [Input.left] using tracked
  | aligned stalled some isMarker heads => exact tracked.align isMarker heads

theorem Session.Tracked.step (merges : MergesMin T) {width : Nat}
    {session next : Session K V T} {event : Session.Event K V T}
    (tracked : session.Tracked width) (allowed : session.sends event)
    (stepped : session.step event = .ok next) : next.Tracked width := by
  cases event with
  | send channel message =>
      obtain rfl := by simpa [Session.step] using stepped
      exact tracked.send allowed message
  | recv =>
      cases received : session.input.recv with
      | error panic => simp [Session.step, received] at stepped
      | ok result =>
          obtain ⟨returned, input⟩ := result
          simp only [Session.step, received, Except.ok.injEq] at stepped
          subst stepped
          exact tracked.receive merges (Input.recv_received received)

/-- A returned epoch is the earliest of the last epochs of all channels. -/
theorem Session.Tracked.returned (merges : MergesMin T) {width : Nat}
    {session next : Session K V T} (tracked : session.Tracked width)
    (stepped : session.step .recv = .ok next) {source : Option Nat}
    {merged : T}
    (delivered : next.delivered =
      session.delivered ++ [(source, .epoch merged)]) :
    (∃ channel < width,
      lastEpoch (next.received channel) = some merged) ∧
    ∀ channel < width, ∃ last,
      lastEpoch (next.received channel) = some last ∧ merged ≤ last := by
  have after := tracked.step merges (show session.sends .recv from trivial)
    stepped
  cases received : session.input.recv with
  | error panic => simp [Session.step, received] at stepped
  | ok result =>
      obtain ⟨returned, input⟩ := result
      simp only [Session.step, received, Except.ok.injEq] at stepped
      subst stepped
      have returnsEpoch : returned = some (.epoch merged) := by
        cases returned with
        | none => simp at delivered
        | some message => simp at delivered; rw [delivered.2]
      cases Input.recv_received received with
      | passed served reaches head unmarked noEpoch =>
          obtain rfl := by simpa using returnsEpoch
          simp [Message.epoch?] at noEpoch
      | epoch served reaches head =>
          obtain ⟨attained, bound⟩ := recvEpoch_eq_some merges returnsEpoch
          constructor
          · obtain ⟨other, upstream, found, isMin⟩ := attained
            refine ⟨other, ?_, (after.epochs other upstream found) ▸ isMin⟩
            exact after.channels ▸ (List.getElem?_eq_some_iff.mp found).1
          · intro other reaches
            have found := List.getElem?_eq_getElem (after.channels ▸ reaches)
            obtain ⟨last, isLast, bound⟩ := bound other _ found
            exact ⟨last, (after.epochs other _ found) ▸ isLast, bound⟩
      | idle stalled waiting => simp at returnsEpoch
      | aligned stalled linked isMarker heads =>
          obtain rfl := by simpa using returnsEpoch
          simp [Message.isMarker] at isMarker

/-- Where every channel keeps its promise the merged stream keeps it, and each
of its epochs is the earliest of the last epochs of all channels. -/
theorem union_keeps_promise (merges : MergesMin T)
    {groups : List (Input K V T)} {session : Session K V T}
    (unread : ∀ group ∈ groups, ∀ upstream ∈ group.receivers,
      upstream.epoch = none)
    (run : Reaches Session.step Session.sends
      (Session.start (mergeInputs groups)) session) :
    ((∀ channel < session.channels, Rising (session.sent channel)) →
      (∀ channel < session.channels, Promise (session.sent channel)) →
      Promise (session.delivered.map Prod.snd)) ∧
    ∀ next source merged, session.step .recv = .ok next →
      next.delivered = session.delivered ++ [(source, .epoch merged)] →
      (∃ channel < session.channels,
        lastEpoch (next.received channel) = some merged) ∧
      ∀ channel < session.channels, ∃ last,
        lastEpoch (next.received channel) = some last ∧ merged ≤ last := by
  have unread : ∀ upstream ∈ (mergeInputs groups).receivers,
      upstream.epoch = none := by
    intro upstream member
    obtain ⟨group, isGroup, member⟩ := List.mem_flatMap.mp member
    exact unread group isGroup upstream member
  have tracked := run.invariant
    (Session.Tracked (mergeInputs groups).receivers.length)
    (Session.Tracked.initial unread)
    fun _ _ _ _ tracked allowed stepped =>
      tracked.step merges allowed stepped
  rw [tracked.channels]
  exact ⟨tracked.promise, fun next source merged stepped delivered =>
    tracked.returned merges stepped delivered⟩

/-! Two inputs of one channel each, merged; the right one is ahead. -/

def oneChannel : Input Nat Nat Nat := Input.newUnlinked.link

instance (session : Session K V T) :
    (event : Session.Event K V T) → Decidable (session.sends event)
  | .send channel _ => inferInstanceAs (Decidable (channel < session.channels))
  | .recv => isTrue trivial

def unionTrace : List (Session.Event Nat Nat Nat) :=
  [.send 1 (.epoch 5), .send 1 (.data ⟨1, 1, 7⟩), .recv, .recv,
    .send 0 (.epoch 3), .recv, .send 0 (.data ⟨1, 2, 4⟩), .recv,
    .send 0 (.epoch 6)]

@[irreducible] def unionSession : Session Nat Nat Nat :=
  replay Session.step (.start (mergeInputs [oneChannel, oneChannel])) unionTrace

@[irreducible] def unionNext : Session Nat Nat Nat :=
  replay Session.step unionSession [.recv]

theorem unionSession_keeps_promise :
    unionNext.delivered.map Prod.snd = [.data ⟨1, 1, 7⟩, .epoch 3,
      .data ⟨1, 2, 4⟩, .epoch 5] ∧
    (∃ channel < unionSession.channels,
      lastEpoch (unionNext.received channel) = some 5) ∧
    ∀ channel < unionSession.channels, ∃ last,
      lastEpoch (unionNext.received channel) = some last ∧ 5 ≤ last := by
  have unread : ∀ group ∈ [oneChannel, oneChannel],
      ∀ upstream ∈ group.receivers, upstream.epoch = none := by
    simp [oneChannel, Input.newUnlinked, Input.link]
  have run : Reaches Session.step Session.sends
      (.start (mergeInputs [oneChannel, oneChannel])) unionSession := by
    unfold unionSession
    exact Follows.reaches unionTrace .refl (by decide +kernel)
  have stepped : unionSession.step .recv = .ok unionNext := by
    unfold unionNext
    exact Follows.stepped (show Follows Session.step Session.sends
      unionSession [.recv] by decide +kernel)
  exact ⟨by decide +kernel,
    (union_keeps_promise mergesMin_nat unread run).2 unionNext (some 0) 5
      stepped (by decide +kernel)⟩

end Malstrom.Channels
