import Malstrom.Channels.Session

namespace Malstrom.Channels

open Data

variable {K V T : Type}

/-! Every channel has been delivered in its own order up to the same marker. -/

structure Session.Aligned (linked : Nat) (session : Session K V T) : Prop where
  channels : session.channels = linked
  split : ∀ channel, session.sent channel =
    session.received channel ++ session.input.queue channel
  inOrder : ∀ channel < linked, plain (session.received channel) =
    plain (deliveredOf channel session.delivered)
  tagged : ∀ delivery ∈ session.delivered,
    delivery.1 = none ↔ delivery.2.isMarker = true
  oneRound : ∃ marker, ∀ channel < linked,
    markers (session.input.queue channel) = [] ∨
      markers (session.input.queue channel) = [marker]

theorem markers_deliveredOf {delivered : List (Option Nat × Message K V T)}
    (tagged : ∀ delivery ∈ delivered,
      delivery.1 = none ↔ delivery.2.isMarker = true) (channel : Nat) :
    markers (deliveredOf channel delivered) =
      markers (delivered.map Prod.snd) := by
  induction delivered with
  | nil => rfl
  | cons delivery rest ih =>
      obtain ⟨source, message⟩ := delivery
      have tag := tagged _ List.mem_cons_self
      have ih := ih fun later member =>
        tagged later (List.mem_cons_of_mem _ member)
      simp only [markers, deliveredOf] at ih ⊢
      cases source with
      | none => simp [ih, tag.mp rfl]
      | some source =>
          have unmarked : message.isMarker = false := by simpa using tag
          by_cases same : source = channel
          · simp [same, ih, unmarked]
          · simp [same, ih, unmarked]

theorem deliveredOf_returned (channel source : Nat)
    (returned : List (Message K V T)) :
    deliveredOf channel
        (returned.map fun message => (some source, message)) =
      if source = channel then returned else [] := by
  split
  next same => simp [deliveredOf, same, List.filterMap_map]
  next other => simp [deliveredOf, other, List.filterMap_map]

theorem unmarked_of_plain {message : Message K V T}
    {returned : List (Message K V T)} (unmarked : message.isMarker = false)
    (returns : plain returned = plain [message]) :
    ∀ delivered ∈ returned, delivered.isMarker = false := by
  have : markers returned = [] := by
    rw [← markers_plain, returns, markers_plain]
    simp [markers, unmarked]
  simpa [markers] using this

theorem Session.Aligned.markers_sent {linked : Nat} {session : Session K V T}
    (aligned : session.Aligned linked) {channel : Nat}
    (reaches : channel < linked) :
    markers (session.sent channel) =
      markers (session.delivered.map Prod.snd) ++
        markers (session.input.queue channel) := by
  rw [aligned.split channel, markers_append, ← markers_plain,
    aligned.inOrder channel reaches, markers_plain,
    markers_deliveredOf aligned.tagged]

theorem Session.Aligned.push {linked : Nat} {session : Session K V T}
    (aligned : session.Aligned linked) {channel : Nat} {message : Message K V T}
    (reaches : channel < session.channels)
    (issues : message.isMarker = true → session.issues channel message) :
    Session.Aligned linked { session with
      input := session.input.push channel message
      sent := Function.update session.sent channel
        (session.sent channel ++ [message]) } := by
  have queues := Input.queue_push session.input reaches message
  refine ⟨?_, ?_, aligned.inOrder, aligned.tagged, ?_⟩
  · simpa [Session.channels, Input.push] using aligned.channels
  · intro other
    simp only [queues, Function.update_apply]
    split
    next same => simp [same, aligned.split channel]
    next => exact aligned.split other
  obtain ⟨current, oneRound⟩ := aligned.oneRound
  cases marked : message.isMarker with
  | false =>
      have none : markers [message] = [] := by simp [markers, marked]
      refine ⟨current, fun other reaches => ?_⟩
      simp only [queues, Function.update_apply]
      split
      next same => simpa [same, none] using oneRound other reaches
      next => exact oneRound other reaches
  | true =>
      have one : markers [message] = [message] := by
        simp [markers, marked]
      cases issues marked with
      | inl copy =>
          -- the copy is of the marker the other channel still has
          obtain ⟨holder, holds, copy⟩ := copy
          rw [aligned.channels] at reaches holds
          rw [aligned.markers_sent holds, aligned.markers_sent reaches,
            List.append_assoc, List.append_cancel_left_eq] at copy
          have held := oneRound holder holds
          rw [copy] at held
          refine ⟨current, fun other linked => ?_⟩
          simp only [queues, Function.update_apply]
          split
          next => exact .inr (by simpa [one] using held)
          next => exact oneRound other linked
      | inr fresh =>
          refine ⟨message, fun other linked => ?_⟩
          have none := fresh other
            (by rw [aligned.channels]; exact linked)
          simp only [queues, Function.update_apply]
          split
          next same => subst same; simp [none, one]
          next => exact .inl none

section

variable [MaybeTime T] [LT T] [DecidableLT T]

theorem Session.Aligned.step {linked : Nat} {session next : Session K V T}
    {event : Session.Event K V T} (aligned : session.Aligned linked)
    (allowed : session.allowed event) (stepped : session.step event = .ok next) :
    next.Aligned linked := by
  cases event with
  | send channel message =>
      obtain rfl := by simpa [Session.step] using stepped
      exact aligned.push allowed.1 allowed.2
  | recv =>
      simp only [Session.step] at stepped
      cases received : session.input.recv with
      | error panic => simp [received] at stepped
      | ok result =>
          obtain ⟨returned, input⟩ := result
          simp only [received, Except.ok.injEq] at stepped
          subst stepped
          cases (Input.recv_received received).takes with
          | @one channel message rest _ _ served reaches head queues same
              unmarked returns =>
              refine ⟨same.trans aligned.channels, ?_, ?_, ?_, ?_⟩
              · intro other
                rw [aligned.split other, List.append_assoc,
                  ← Input.split_pop head queues]
              · intro other reaches
                simp only [Input.left_pop head queues, served, plain_append,
                  deliveredOf_append, deliveredOf_returned,
                  aligned.inOrder other reaches, Function.update_apply]
                split
                next same => rw [if_pos same.symm, returns]
                next ne => rw [if_neg (Ne.symm ne)]
              · intro delivery member
                simp only [served, List.mem_append, List.mem_map] at member
                cases member with
                | inl earlier => exact aligned.tagged delivery earlier
                | inr later =>
                    obtain ⟨message, member, rfl⟩ := later
                    simp [unmarked_of_plain unmarked returns message member]
              · obtain ⟨marker, oneRound⟩ := aligned.oneRound
                refine ⟨marker, fun other reaches => ?_⟩
                have before := oneRound other reaches
                simp only [queues, Function.update_apply]
                split
                next same =>
                  subst same
                  simpa [head, markers, unmarked] using before
                next => exact before
          | idle served waiting =>
              simpa [Input.left] using aligned
          | @every marker _ served someChannel isMarker heads same =>
              have lengths : session.input.receivers.length = linked :=
                aligned.channels
              refine ⟨same.trans lengths, ?_, ?_, ?_, ?_⟩
              · intro other
                rw [aligned.split other, List.append_assoc,
                  ← Input.split_markers heads same]
              · intro other reaches
                rw [← lengths] at reaches
                simp [served, Input.left_markers heads reaches,
                  aligned.inOrder other (lengths ▸ reaches), deliveredOf]
              · intro delivery member
                simp only [served, List.mem_append, List.mem_map] at member
                cases member with
                | inl earlier => exact aligned.tagged delivery earlier
                | inr later =>
                    obtain ⟨message, member, rfl⟩ := later
                    obtain rfl : message = marker := by simpa using member
                    simp [isMarker]
              · obtain ⟨marker, oneRound⟩ := aligned.oneRound
                refine ⟨marker, fun other reaches => .inl ?_⟩
                have before := oneRound other reaches
                rw [← lengths] at reaches
                simp only [heads other reaches, markers, isMarker,
                  List.filter_cons_of_pos] at before ⊢
                cases before with
                | inl none => simp at none
                | inr one => exact (List.cons.inj one).2

end

theorem Session.Aligned.initial {input : Input K V T}
    (unsent : ∀ channel, input.queue channel = []) :
    (Session.start input).Aligned input.receivers.length := by
  refine ⟨rfl, ?_, ?_, ?_, .absBarrier, ?_⟩
  · intro channel
    simp [start]
  · intro channel linked
    rfl
  · intro delivery member
    simp [start] at member
  · intro channel linked
    exact .inl (by simp [start, unsent, markers])

/-- The part of a channel before and after a marker which was delivered. -/
theorem Session.Aligned.cut {linked : Nat} {session : Session K V T}
    (aligned : session.Aligned linked)
    {before after : List (Option Nat × Message K V T)}
    {marker : Message K V T} (isMarker : marker.isMarker = true)
    (delivered : session.delivered = before ++ (none, marker) :: after)
    {channel : Nat} (reaches : channel < linked) :
    ∃ earlier later,
      session.sent channel = earlier ++ marker :: later ∧
      markers earlier = markers (before.map Prod.snd) ∧
      plain earlier = plain (deliveredOf channel before) ∧
      plain later = plain (deliveredOf channel after) ++
        plain (session.input.queue channel) := by
  have keeps : marker.epoch?.isNone = true := by
    cases marker <;> simp_all [Message.isMarker, Message.epoch?]
  have parts : plain (session.received channel) =
      plain (deliveredOf channel before) ++
        marker :: plain (deliveredOf channel after) := by
    rw [aligned.inOrder channel reaches, delivered]
    simp [deliveredOf, plain, keeps]
  obtain ⟨earlier, tail, split, isEarlier, isTail⟩ :=
    List.filter_eq_append_iff.mp parts
  obtain ⟨skipped, later, rfl, isSkipped, -, isLater⟩ :=
    List.filter_eq_cons_iff.mp isTail
  have skippedPlain : plain skipped = [] := by
    simpa [plain] using isSkipped
  have earlierPlain : plain (earlier ++ skipped) =
      plain (deliveredOf channel before) := by
    rw [plain_append, skippedPlain, List.append_nil]
    exact isEarlier
  refine ⟨earlier ++ skipped, later ++ session.input.queue channel, ?_, ?_,
    earlierPlain, ?_⟩
  · simp [aligned.split channel, split]
  · have tagged : ∀ delivery ∈ before,
        delivery.1 = none ↔ delivery.2.isMarker = true := by
      intro delivery member
      exact aligned.tagged delivery (by simp [delivered, member])
    rw [← markers_plain, earlierPlain, markers_plain,
      markers_deliveredOf tagged]
  · rw [plain_append, ← isLater]
    rfl

theorem Takes.stalled {input next : Input K V T}
    {returned : Option (Message K V T)} (takes : Takes input returned next)
    (nothing : ∀ channel < input.receivers.length,
      next.queue channel = input.queue channel) :
    returned = none ∧ input.Stalled ∧
      (input.receivers.length = 0 ∨
        ∃ channel < input.receivers.length, input.queue channel = []) := by
  cases takes with
  | one served linked head queues same unmarked returns =>
      have same := nothing _ linked
      rw [queues, head] at same
      simp at same
  | idle served waiting => exact ⟨rfl, Input.next?_eq_none.mp served, waiting⟩
  | every served linked isMarker heads same =>
      have head := heads 0 linked
      rw [nothing 0 linked] at head
      simp at head

section

variable [MaybeTime T] [LT T] [DecidableLT T]

theorem Session.Aligned.recv {linked : Nat} {session : Session K V T}
    (aligned : session.Aligned linked) :
    ∃ returned next, session.input.recv = .ok (returned, next) := by
  cases received : session.input.recv with
  | ok result => exact ⟨result.1, result.2, rfl⟩
  | error panic =>
      exfalso
      obtain ⟨barred, isBarred, suspended, isSuspended,
        ⟨behindBarrier, barrier⟩, ⟨behindSuspend, suspend⟩⟩ :=
        Input.recv_panics received
      obtain ⟨first, linkedFirst, rfl⟩ := List.mem_iff_getElem.mp isBarred
      obtain ⟨second, linkedSecond, rfl⟩ :=
        List.mem_iff_getElem.mp isSuspended
      obtain ⟨marker, oneRound⟩ := aligned.oneRound
      have lengths : session.input.receivers.length = linked :=
        aligned.channels
      have one := oneRound first (by omega)
      have two := oneRound second (by omega)
      have barrierIs : marker = .absBarrier := by
        simp [Input.queue, linkedFirst, barrier, markers, Message.isMarker,
          List.filter_cons] at one
        exact one.1.symm
      have suspendIs : marker = .suspendMarker := by
        simp [Input.queue, linkedSecond, suspend, markers, Message.isMarker,
          List.filter_cons] at two
        exact two.1.symm
      simp [barrierIs] at suspendIs

/-- Every message but an epoch is delivered once and in the order of its
channel, every marker once for all channels and at its place in each of them,
and no call panics or leaves a message which it could deliver. -/
theorem recv_aligns {input : Input K V T} {session : Session K V T}
    (unsent : ∀ channel, input.queue channel = [])
    (run : Reaches Session.step Session.allowed (Session.start input)
      session) :
    (∀ channel < input.receivers.length,
      plain (session.sent channel) =
        plain (deliveredOf channel session.delivered) ++
          plain (session.input.queue channel)) ∧
    (∀ delivery ∈ session.delivered,
      delivery.1 = none ↔ delivery.2.isMarker = true) ∧
    (∀ before marker after,
      session.delivered = before ++ (none, marker) :: after →
      ∀ channel < input.receivers.length, ∃ earlier later,
        session.sent channel = earlier ++ marker :: later ∧
        markers earlier = markers (before.map Prod.snd) ∧
        plain earlier = plain (deliveredOf channel before) ∧
        plain later = plain (deliveredOf channel after) ++
          plain (session.input.queue channel)) ∧
    ∃ returned next, session.input.recv = .ok (returned, next) ∧
      ((∀ channel < input.receivers.length,
          next.queue channel = session.input.queue channel) →
        returned = none ∧ session.input.Stalled ∧
          (input.receivers.length = 0 ∨
            ∃ channel < input.receivers.length,
              session.input.queue channel = [])) := by
  have aligned : session.Aligned input.receivers.length :=
    run.invariant _ (Session.Aligned.initial unsent)
      fun _ _ _ _ aligned allowed stepped => aligned.step allowed stepped
  refine ⟨?_, aligned.tagged, ?_, ?_⟩
  · intro channel linked
    rw [aligned.split channel, plain_append, aligned.inOrder channel linked]
  · intro before marker after delivered channel linked
    have isMarker : marker.isMarker = true :=
      (aligned.tagged (none, marker) (by simp [delivered])).mp rfl
    exact aligned.cut isMarker delivered linked
  · obtain ⟨returned, next, received⟩ := aligned.recv
    have channels : session.input.receivers.length = input.receivers.length :=
      aligned.channels
    refine ⟨returned, next, received, fun nothing => ?_⟩
    rw [← channels] at nothing ⊢
    exact (Input.recv_received received).takes.stalled nothing

end

/-! Two channels, a barrier on the left one long before the right one. -/

def twoChannels : Input Nat Nat Nat := Input.newUnlinked.link.link

def barrierTrace : List (Session.Event Nat Nat Nat) :=
  [.send 0 (.data ⟨1, 1, 1⟩), .send 0 .absBarrier, .send 0 (.data ⟨1, 2, 4⟩),
    .recv, .send 1 (.epoch 3), .recv, .recv, .send 1 (.data ⟨2, 3, 5⟩), .recv,
    .send 1 .absBarrier, .recv]

@[irreducible] def barrierSession : Session Nat Nat Nat :=
  replay Session.step (.start twoChannels) barrierTrace

theorem barrierSession_aligns :
    (∀ channel, twoChannels.queue channel = []) ∧
    barrierSession.delivered = [(some 0, .data ⟨1, 1, 1⟩),
      (some 1, .data ⟨2, 3, 5⟩), (none, .absBarrier)] ∧
    ∀ channel < 2, plain (barrierSession.sent channel) =
      plain (deliveredOf channel barrierSession.delivered) ++
        plain (barrierSession.input.queue channel) := by
  have unsent : ∀ channel, twoChannels.queue channel = [] := by
    intro channel
    match channel with
    | 0 | 1 => rfl
    | more + 2 => rfl
  have run : Reaches Session.step Session.allowed (.start twoChannels)
      barrierSession := by
    unfold barrierSession
    exact Follows.reaches barrierTrace .refl (by decide +kernel)
  exact ⟨unsent, by decide +kernel, (recv_aligns unsent run).1⟩

end Malstrom.Channels
