import Malstrom.Data.Cut
import Malstrom.Data.Sweep
import Malstrom.Keyed.Alignment
import Malstrom.Keyed.Partitioners

namespace Malstrom.Keyed

open Data Operators

variable {K V T VO S L : Type}

/-! The barriers of all workers cut the streams consistently: what the workers
hand downstream before their barriers is what they took in before theirs. -/

namespace Worker

def started (worker : Worker K V T VO S L) : Nat :=
  worker.taken.countP Message.isBarrier

def emitted (worker : Worker K V T VO S L) : Nat :=
  worker.handed.countP Message.isBarrier

def isClosed (worker : Worker K V T VO S L) : Bool :=
  worker.taken.any Message.isSuspend

/-- The worker has handed its own `SuspendMarker` downstream. -/
def isShut (worker : Worker K V T VO S L) : Bool :=
  worker.handed.any Message.isSuspend

/-- Barrier markers read from a remote which has not suspended. -/
def seen (worker : Worker K V T VO S L) (remote : WorkerId) : Nat :=
  worker.emitted + (worker.distributor.flags.isBarred remote).toNat

/-- Records taken in before the local barrier of the given number. -/
def recordsTaken (worker : Worker K V T VO S L) (number : Nat) :
    List (DataMessage K V T) :=
  beforeBarrier Message.isBarrier Message.data? number worker.taken

/-- Records handed downstream before the barrier of the given number. -/
def recordsHanded (worker : Worker K V T VO S L) (number : Nat) :
    List (DataMessage K V T) :=
  beforeBarrier Message.isBarrier Message.data? number worker.handed

end Worker

namespace System

def recordsTaken (workers : IndexSet WorkerId) (number : Nat)
    (system : System K V T VO S L) : Multiset (DataMessage K V T) :=
  ∑ worker ∈ workers.items.toFinset,
    ((system.workers worker).recordsTaken number :
      Multiset (DataMessage K V T))

def recordsHanded (workers : IndexSet WorkerId) (number : Nat)
    (system : System K V T VO S L) : Multiset (DataMessage K V T) :=
  ∑ worker ∈ workers.items.toFinset,
    ((system.workers worker).recordsHanded number :
      Multiset (DataMessage K V T))

/-- Records on a link which were sent before the barrier of the given
number. -/
def inFlight (number : Nat) (system : System K V T VO S L)
    (ends : WorkerId × WorkerId) : Multiset (DataMessage K V T) :=
  beforeBarrier NetworkMessage.isBarrier NetworkMessage.record?
    (number - (system.workers ends.2).seen ends.1)
    (system.links ends.1 ends.2)

end System

/-- What the environment may do while no rescale is under way: the workers of
the set run, and a local upstream sends nothing behind its `SuspendMarker`. -/
structure Steady (workers : IndexSet WorkerId) (system : System K V T VO S L)
    (event : Event K V T) : Prop where
  member : event.worker ∈ workers
  received : ∀ message ∈ system.received event,
    message.rescale? = none ∧ (system.workers event.worker).isClosed = false

instance (workers : IndexSet WorkerId) (system : System K V T VO S L)
    (event : Event K V T) : Decidable (Steady workers system event) :=
  decidable_of_iff (event.worker ∈ workers ∧
    ∀ message ∈ system.received event, message.rescale? = none ∧
      (system.workers event.worker).isClosed = false)
    ⟨fun both => ⟨both.1, both.2⟩, fun steady => ⟨steady.member, steady.received⟩⟩

/-! ### The contents of a link -/

/-- Records of the receiver's keys, none behind a `SuspendMarker`, and a marker
for each barrier the sender has started and the receiver has not seen. -/
structure Paced (owner : K → WorkerId) (target : WorkerId)
    (sender : Worker K V T VO S L) (seen : Nat) (suspended : Bool)
    (link : List (NetworkMessage K V T)) : Prop where
  owned : ∀ message, .data message ∈ link → owner message.content.key = target
  silent : Judged (sweep NetworkMessage.isSuspend)
    (fun passed message => passed = true → message.record? = none) suspended
    link
  closed : viewAfter (sweep NetworkMessage.isSuspend) suspended link = true →
    sender.isClosed = true
  paced : suspended = false →
    seen + link.countP NetworkMessage.isBarrier = sender.started

theorem judged_silent {messages : List (NetworkMessage K V T)} {passed : Bool}
    (silent : ∀ message ∈ messages, message.record? = none) :
    Judged (sweep NetworkMessage.isSuspend)
      (fun passed (message : NetworkMessage K V T) =>
        passed = true → message.record? = none) passed messages := by
  induction messages generalizing passed with
  | nil => trivial
  | cons message rest ih =>
      exact ⟨fun _ => silent message (by simp),
        ih fun later member => silent later (by simp [member])⟩

namespace Paced

variable {owner : K → WorkerId} {target : WorkerId}
  {sender sender' : Worker K V T VO S L} {seen seen' : Nat}
  {suspended : Bool} {link more : List (NetworkMessage K V T)}

theorem noRecord (paced : Paced owner target sender seen true link) :
    ∀ message ∈ link, message.record? = none := by
  have silent := paced.silent
  clear paced
  induction link with
  | nil => simp
  | cons message rest ih =>
      intro found member
      rcases List.mem_cons.mp member with first | later
      · exact first ▸ silent.1 rfl
      · exact ih (by simpa [sweep] using silent.2) found later

theorem unsuspended (paced : Paced owner target sender seen suspended link)
    (isOpen : sender.isClosed = false) :
    viewAfter (sweep NetworkMessage.isSuspend) suspended link = false ∧
      suspended = false := by
  have view : viewAfter (sweep NetworkMessage.isSuspend) suspended link =
      false := by
    cases passed : viewAfter (sweep NetworkMessage.isSuspend) suspended link with
    | false => rfl
    | true => simp [paced.closed passed] at isOpen
  refine ⟨view, ?_⟩
  cases suspended with
  | false => rfl
  | true => simp [viewAfter_sweep_of_passed] at view

theorem send (paced : Paced owner target sender seen suspended link)
    (noRecord : ∀ message ∈ more, message.record? = none)
    (stays : sender.isClosed = true → sender'.isClosed = true)
    (closes : more.any NetworkMessage.isSuspend = true →
      sender'.isClosed = true)
    (started : suspended = false →
      sender'.started = sender.started + more.countP NetworkMessage.isBarrier) :
    Paced owner target sender' seen suspended (link ++ more) where
  owned message member := by
    rcases List.mem_append.mp member with before | now
    · exact paced.owned message before
    · have none := noRecord _ now
      simp [NetworkMessage.record?, NetworkMessage.data?] at none
  silent := judged_append.mpr ⟨paced.silent, judged_silent noRecord⟩
  closed passed := by
    rw [viewAfter_append] at passed
    cases before : viewAfter (sweep NetworkMessage.isSuspend) suspended link with
    | true => exact stays (paced.closed before)
    | false =>
        apply closes
        rw [List.any_eq_true]
        by_contra absent
        rw [before, viewAfter_sweep_of_absent] at passed
        · simp at passed
        · intro message member
          simpa using fun isMarker => absent ⟨message, member, isMarker⟩
  paced isOpen := by
    rw [List.countP_append, started isOpen, ← paced.paced isOpen]
    omega

theorem sendRecord {message : NetworkDataMessage K V T}
    (paced : Paced owner target sender seen suspended link)
    (owned : owner message.content.key = target)
    (isOpen : sender.isClosed = false)
    (started : sender'.started = sender.started) :
    Paced owner target sender' seen suspended (link ++ [.data message]) where
  owned found member := by
    rcases List.mem_append.mp member with before | now
    · exact paced.owned found before
    · obtain rfl : found = message := by simpa using now
      exact owned
  silent := judged_push.mpr ⟨paced.silent, fun passed => by
    simp [(paced.unsuspended isOpen).1] at passed⟩
  closed passed := by
    rw [viewAfter_append, (paced.unsuspended isOpen).1] at passed
    simp [viewAfter, sweep, NetworkMessage.isSuspend] at passed
  paced isOpen := by
    rw [started, ← paced.paced isOpen]
    simp [NetworkMessage.isBarrier]

theorem take {message : NetworkMessage K V T}
    (paced : Paced owner target sender seen false (message :: link))
    (sees : seen' = seen + if message.isBarrier then 1 else 0) :
    Paced owner target sender seen' message.isSuspend link where
  owned found member := paced.owned found (by simp [member])
  silent := by simpa [sweep] using paced.silent.2
  closed passed := paced.closed (by simpa [viewAfter, sweep] using passed)
  paced notSuspend := by
    have before := paced.paced rfl
    rw [List.countP_cons] at before
    omega

theorem keep (paced : Paced owner target sender seen suspended link)
    (sees : suspended = false → seen' = seen) :
    Paced owner target sender seen' suspended link where
  owned := paced.owned
  silent := paced.silent
  closed := paced.closed
  paced isOpen := by rw [sees isOpen, paced.paced isOpen]

end Paced

/-! ### What holds in every state -/

structure Aligned (partitioner : WorkerPartitioner K)
    (workers : IndexSet WorkerId) (version : Version)
    (system : System K V T VO S L) : Prop where
  running : Running workers version system
  pending : ∀ worker ∈ workers, (system.workers worker).emitted +
      (system.workers worker).distributor.flags.localBarrier.toNat =
    (system.workers worker).started
  shut : ∀ worker ∈ workers, (system.workers worker).isShut = true →
    ∀ remote ∈ workers, remote ≠ worker →
      (system.workers worker).distributor.flags.sentSuspend remote = true
  paced : ∀ source target, source ≠ target → source ∈ workers →
    target ∈ workers → Paced (fun key => partitioner key workers) target
      (system.workers source) ((system.workers target).seen source)
      ((system.workers target).distributor.flags.sentSuspend source)
      (system.links source target)
  conserved : ∀ number, system.recordsTaken workers number =
    system.recordsHanded workers number +
      ∑ ends ∈ workers.items.toFinset.offDiag, system.inFlight number ends

section

variable {partitioner : WorkerPartitioner K} {workers : IndexSet WorkerId}
  {version : Version} {system : System K V T VO S L} {event : Event K V T}
  {worker : Worker K V T VO S L} {output : List (Message K V T)}
  {outgoing : List (WorkerId × NetworkMessage K V T)}

theorem silent_countP {messages : List (Message K V T)}
    (silent : ∀ message ∈ messages, message.isSilent = true) :
    messages.countP Message.isBarrier = 0 ∧
      messages.any Message.isSuspend = false ∧
      ∀ message ∈ messages, message.data? = none := by
  have each (message : Message K V T) (isSilent : message.isSilent = true) :
      message.isBarrier = false ∧ message.isSuspend = false ∧
        message.data? = none := by
    cases message <;> first
      | exact ⟨rfl, rfl, rfl⟩
      | simp [Message.isSilent] at isSilent
  refine ⟨?_, ?_, fun message member => (each message (silent _ member)).2.2⟩
  · rw [List.countP_eq_zero]
    intro message member
    simp [(each message (silent _ member)).1]
  · rw [List.any_eq_false]
    intro message member
    simp [(each message (silent _ member)).2.1]

theorem NetworkMessage.parts_of_isSilent {message : NetworkMessage K V T}
    (silent : message.isSilent = true) :
    message.record? = none ∧ message.isSuspend = false ∧
      message.isBarrier = false := by
  cases message <;> first
    | exact ⟨rfl, rfl, rfl⟩
    | simp [isSilent] at silent

theorem silent_addressed {target : WorkerId}
    (silent : ∀ addressed ∈ outgoing, addressed.2.isSilent = true) :
    (∀ message ∈ Links.addressedTo target outgoing, message.record? = none) ∧
      (Links.addressedTo target outgoing).any NetworkMessage.isSuspend =
        false ∧
      (Links.addressedTo target outgoing).countP NetworkMessage.isBarrier =
        0 := by
  have inside (message : NetworkMessage K V T)
      (member : message ∈ Links.addressedTo target outgoing) :=
    NetworkMessage.parts_of_isSilent
      (silent _ (Links.mem_addressedTo.mp member))
  refine ⟨fun message member => (inside message member).1, ?_, ?_⟩
  · rw [List.any_eq_false]
    intro message member
    simp [(inside message member).2.1]
  · rw [List.countP_eq_zero]
    intro message member
    simp [(inside message member).2.2]

namespace Turned

theorem started (turned : Turned partitioner workers system event worker output
      outgoing) :
    worker.started = (system.workers event.worker).started +
      (system.received event).countP Message.isBarrier := by
  simp [Worker.started, turned.taken]

theorem emitted (turned : Turned partitioner workers system event worker output
      outgoing) :
    worker.emitted = (system.workers event.worker).emitted +
      output.countP Message.isBarrier := by
  simp [Worker.emitted, turned.handed]

theorem isClosed (turned : Turned partitioner workers system event worker output
      outgoing) :
    worker.isClosed = ((system.workers event.worker).isClosed ||
      (system.received event).any Message.isSuspend) := by
  simp [Worker.isClosed, turned.taken]

theorem pending (turned : Turned partitioner workers system event worker output
      outgoing)
    (before : (system.workers event.worker).emitted +
        (system.workers event.worker).distributor.flags.localBarrier.toNat =
      (system.workers event.worker).started) :
    worker.emitted + worker.distributor.flags.localBarrier.toNat =
      worker.started := by
  rw [turned.emitted, turned.started]
  have turn := turned.turn
  generalize system.received event = received at turn ⊢
  generalize system.incoming event = incoming at turn
  generalize worker.distributor.flags = flags at turn ⊢
  cases turn with
  | silent _ silentReceived silentOutput _ =>
      rw [(silent_countP silentReceived).1, (silent_countP silentOutput).1]
      omega
  | kept _ _ => simpa [Message.isBarrier] using before
  | forwarded _ _ _ => simpa [Message.isBarrier] using before
  | arrived => simpa [Message.isBarrier] using before
  | localBarrier free _ _ =>
      rw [free] at before
      simpa [Message.isBarrier] using before
  | localSuspend _ => simpa [Message.isBarrier] using before
  | barred => simpa using before
  | suspended => simpa using before
  | barrier pending _ =>
      rw [pending] at before
      simpa [Message.isBarrier] using before
  | shutdown _ => simpa [Message.isBarrier] using before

theorem shut (turned : Turned partitioner workers system event worker output
      outgoing) (running : Running workers version system)
    (member : event.worker ∈ workers)
    (before : (system.workers event.worker).isShut = true →
      ∀ remote ∈ workers, remote ≠ event.worker →
        (system.workers event.worker).distributor.flags.sentSuspend remote =
          true)
    (isShut : worker.isShut = true) (remote : WorkerId)
    (inside : remote ∈ workers) (other : remote ≠ event.worker) :
    worker.distributor.flags.sentSuspend remote = true := by
  have either : (system.workers event.worker).isShut = true ∨
      output.any Message.isSuspend = true := by
    simpa [Worker.isShut, turned.handed] using isShut
  have client : remote ∈ (system.workers event.worker).distributor.remotes :=
    ((running event.worker member).2 remote).mpr ⟨inside, other⟩
  have turn := turned.turn
  generalize system.received event = received at turn
  generalize system.incoming event = incoming at turn
  generalize worker.distributor.flags = flags at turn ⊢
  have known (quiet : output.any Message.isSuspend = false) :
      (system.workers event.worker).distributor.flags.sentSuspend remote =
        true :=
    before (either.resolve_right (by simp [quiet])) remote inside other
  cases turn with
  | silent _ _ silentOutput _ => exact known (silent_countP silentOutput).2.1
  | suspended =>
      simp only [Function.update_apply]
      split
      · rfl
      · exact known rfl
  | shutdown aligned => exact aligned remote client
  | _ => exact known rfl

theorem send (turned : Turned partitioner workers system event worker output
      outgoing) (running : Running workers version system)
    (steady : Steady workers system event) {target : WorkerId} {seen : Nat}
    {suspended : Bool} {link : List (NetworkMessage K V T)}
    (inside : target ∈ workers) (other : target ≠ event.worker)
    (paced : Paced (fun key => partitioner key workers) target
      (system.workers event.worker) seen suspended link) :
    Paced (fun key => partitioner key workers) target worker seen suspended
      (link ++ Links.addressedTo target outgoing) := by
  have client : target ∈ (system.workers event.worker).distributor.remotes :=
    ((running event.worker steady.member).2 target).mpr ⟨inside, other⟩
  have stays : (system.workers event.worker).isClosed = true →
      worker.isClosed = true := by
    rw [turned.isClosed]
    exact fun closed => by simp [closed]
  have isOpen (message : Message K V T)
      (received : message ∈ system.received event) :
      (system.workers event.worker).isClosed = false :=
    (steady.received message received).2
  have started := turned.started
  have isClosed := turned.isClosed
  have turn := turned.turn
  generalize system.received event = received at turn started isClosed isOpen
  generalize system.incoming event = incoming at turn
  generalize worker.distributor.flags = flags at turn
  have nothing (unmarked : received.countP Message.isBarrier = 0)
      (empty : Links.addressedTo target outgoing = []) :
      Paced (fun key => partitioner key workers) target worker seen suspended
        (link ++ Links.addressedTo target outgoing) := by
    rw [empty]
    refine paced.send (by simp) stays (by simp) fun _ => ?_
    simp [started, unmarked]
  cases turn with
  | silent _ silentReceived _ silentOutgoing =>
      obtain ⟨noRecord, noSuspend, noBarrier⟩ :=
        silent_addressed silentOutgoing
      refine paced.send noRecord stays (by simp [noSuspend]) fun _ => ?_
      rw [started, (silent_countP silentReceived).1, noBarrier]
  | kept _ _ => exact nothing rfl rfl
  | @forwarded message _ _ away _ =>
      rw [Links.addressedTo_cons]
      split
      next same =>
        exact paced.sendRecord same (isOpen (.data message) (by simp))
          (by simp [started, Message.isBarrier])
      next different =>
        refine paced.send (by simp) stays (by simp) fun _ => ?_
        simp [started, Message.isBarrier]
  | arrived => exact nothing rfl rfl
  | localBarrier _ _ all =>
      rw [all target client]
      refine paced.send (by simp [NetworkMessage.record?, NetworkMessage.data?])
        stays (by simp [NetworkMessage.isSuspend]) fun _ => ?_
      simp [started, Message.isBarrier, NetworkMessage.isBarrier]
  | localSuspend broadcast =>
      rcases broadcast target with empty | marker
      · exact nothing rfl empty
      · rw [marker]
        refine paced.send
          (by simp [NetworkMessage.record?, NetworkMessage.data?]) stays
          (fun _ => by simp [isClosed, Message.isSuspend]) fun _ => ?_
        simp [started, Message.isBarrier, NetworkMessage.isBarrier]
  | barred => exact nothing rfl rfl
  | suspended => exact nothing rfl rfl
  | barrier _ _ => exact nothing rfl rfl
  | shutdown _ => exact nothing rfl rfl

theorem keep (turned : Turned partitioner workers system event worker output
      outgoing) (running : Running workers version system)
    (steady : Steady workers system event) {source : WorkerId}
    {sender : Worker K V T VO S L} {link : List (NetworkMessage K V T)}
    (inside : source ∈ workers) (other : source ≠ event.worker)
    (elsewhere : (system.incoming event).map Prod.fst ≠ some source)
    (paced : Paced (fun key => partitioner key workers) event.worker sender
      ((system.workers event.worker).seen source)
      ((system.workers event.worker).distributor.flags.sentSuspend source)
      link) :
    Paced (fun key => partitioner key workers) event.worker sender
      (worker.seen source) (worker.distributor.flags.sentSuspend source)
      link ∧
    ((system.workers event.worker).distributor.flags.sentSuspend source =
        false → worker.seen source =
          (system.workers event.worker).seen source) := by
  have client : source ∈ (system.workers event.worker).distributor.remotes :=
    ((running event.worker steady.member).2 source).mpr ⟨inside, other⟩
  have emitted := turned.emitted
  have turn := turned.turn
  unfold Worker.seen at paced ⊢
  rw [emitted]
  generalize system.received event = received at turn
  generalize system.incoming event = incoming at turn elsewhere
  generalize worker.distributor.flags = flags at turn ⊢
  have same {count : Nat} (none : count = 0) :
      Paced (fun key => partitioner key workers) event.worker sender
        ((system.workers event.worker).emitted + count +
          ((system.workers event.worker).distributor.flags.isBarred
            source).toNat)
        ((system.workers event.worker).distributor.flags.sentSuspend source)
        link ∧
      ((system.workers event.worker).distributor.flags.sentSuspend source =
          false → (system.workers event.worker).emitted + count +
          ((system.workers event.worker).distributor.flags.isBarred
            source).toNat = (system.workers event.worker).emitted +
          ((system.workers event.worker).distributor.flags.isBarred
            source).toNat) := by
    subst none
    exact ⟨paced, fun _ => rfl⟩
  cases turn with
  | silent _ _ silentOutput _ => exact same (silent_countP silentOutput).1
  | kept _ _ => exact same rfl
  | forwarded _ _ _ => exact same rfl
  | arrived => exact same rfl
  | localBarrier _ _ _ => exact same rfl
  | localSuspend _ => exact same rfl
  | @barred remote =>
      have different : source ≠ remote := fun equal => elsewhere (by simp [equal])
      simp only [Function.update_of_ne different]
      exact same rfl
  | @suspended remote =>
      have different : source ≠ remote := fun equal => elsewhere (by simp [equal])
      simp only [Function.update_of_ne different]
      exact same rfl
  | barrier _ aligned =>
      have sees (isOpen : (system.workers
          event.worker).distributor.flags.sentSuspend source = false) :
          (system.workers event.worker).emitted +
              [(.absBarrier : Message K V T)].countP Message.isBarrier +
            false.toNat = (system.workers event.worker).emitted +
          ((system.workers event.worker).distributor.flags.isBarred
            source).toNat := by
        have barred := (aligned source client).resolve_right (by simp [isOpen])
        simp [barred, Message.isBarrier]
      exact ⟨paced.keep sees, sees⟩
  | shutdown _ => exact same rfl

theorem take (turned : Turned partitioner workers system event worker output
      outgoing) {source : WorkerId} {message : NetworkMessage K V T}
    {sender : Worker K V T VO S L} {link : List (NetworkMessage K V T)}
    (incoming : system.incoming event = some (source, message))
    (paced : Paced (fun key => partitioner key workers) event.worker sender
      ((system.workers event.worker).seen source)
      ((system.workers event.worker).distributor.flags.sentSuspend source)
      (message :: link)) :
    Paced (fun key => partitioner key workers) event.worker sender
        (worker.seen source) (worker.distributor.flags.sentSuspend source)
        link ∧
      worker.seen source = (system.workers event.worker).seen source +
        if message.isBarrier then 1 else 0 := by
  obtain ⟨unbarred, unsuspended⟩ := turned.isOpen (source, message) incoming
  have emitted := turned.emitted
  have turn := turned.turn
  unfold Worker.seen at paced ⊢
  rw [unsuspended, unbarred] at paced
  rw [emitted, unbarred]
  generalize system.received event = received at turn
  rw [incoming] at turn
  generalize worker.distributor.flags = flags at turn ⊢
  cases turn with
  | silent silentIncoming _ silentOutput _ =>
      have quiet := silentIncoming _ rfl
      rw [(silent_countP silentOutput).1, unbarred, unsuspended]
      cases message with
      | data _ => simp [NetworkMessage.isSilent] at quiet
      | barrierMarker => simp [NetworkMessage.isSilent] at quiet
      | suspendMarker => simp [NetworkMessage.isSilent] at quiet
      | _ => exact ⟨paced.take rfl, rfl⟩
  | arrived =>
      rw [unbarred, unsuspended]
      exact ⟨paced.take rfl, rfl⟩
  | barred =>
      rw [unsuspended]
      simp only [Function.update_self]
      exact ⟨paced.take rfl, rfl⟩
  | suspended =>
      rw [unbarred]
      simp only [Function.update_self]
      exact ⟨paced.take rfl, rfl⟩

/-! ### Conservation -/

theorem beforeBarrier_data (message : DataMessage K V T) (number : Nat) :
    beforeBarrier Message.isBarrier Message.data? number [.data message] =
      if 0 < number then [message] else [] := by
  cases number <;> simp [beforeBarrier, Message.isBarrier, Message.data?]

theorem beforeBarrier_record (message : NetworkDataMessage K V T)
    (number : Nat) :
    beforeBarrier NetworkMessage.isBarrier NetworkMessage.record? number
        [.data message] =
      if 0 < number then [message.content] else [] := by
  cases number <;> simp [beforeBarrier, NetworkMessage.isBarrier,
    NetworkMessage.record?, NetworkMessage.data?]

theorem recordsTaken (turned : Turned partitioner workers system event worker
      output outgoing) (number : Nat) :
    worker.recordsTaken number =
      (system.workers event.worker).recordsTaken number ++
        beforeBarrier Message.isBarrier Message.data?
          (number - (system.workers event.worker).started)
          (system.received event) := by
  rw [Worker.recordsTaken, turned.taken, beforeBarrier_append]
  rfl

theorem recordsHanded (turned : Turned partitioner workers system event worker
      output outgoing) (number : Nat) :
    worker.recordsHanded number =
      (system.workers event.worker).recordsHanded number ++
        beforeBarrier Message.isBarrier Message.data?
          (number - (system.workers event.worker).emitted) output := by
  rw [Worker.recordsHanded, turned.handed, beforeBarrier_append]
  rfl

theorem inFlight_source (system : System K V T VO S L) (number : Nat)
    {thisWorker target : WorkerId} (worker : Worker K V T VO S L)
    (incoming : Option (WorkerId × NetworkMessage K V T))
    (other : target ≠ thisWorker) :
    (system.moved thisWorker incoming worker outgoing).inFlight number
        (thisWorker, target) =
      system.inFlight number (thisWorker, target) +
        (beforeBarrier NetworkMessage.isBarrier NetworkMessage.record?
          (number - (system.workers target).seen thisWorker -
            (system.links thisWorker target).countP NetworkMessage.isBarrier)
          (Links.addressedTo target outgoing) :
            Multiset (DataMessage K V T)) := by
  simp only [System.inFlight, System.moved_worker, System.moved_links, other,
    and_false, if_false, if_true, beforeBarrier_append, Multiset.coe_add]

theorem inFlight_target (turned : Turned partitioner workers system event worker
      output outgoing) (running : Running workers version system)
    (steady : Steady workers system event) (number : Nat) {source : WorkerId}
    (inside : source ∈ workers) (other : source ≠ event.worker)
    (paced : Paced (fun key => partitioner key workers) event.worker
      (system.workers source) ((system.workers event.worker).seen source)
      ((system.workers event.worker).distributor.flags.sentSuspend source)
      (system.links source event.worker)) :
    system.inFlight number (source, event.worker) =
      (system.moved event.worker (system.incoming event) worker
        outgoing).inFlight number (source, event.worker) +
      (if (system.incoming event).map Prod.fst = some source then
        (beforeBarrier NetworkMessage.isBarrier NetworkMessage.record?
          (number - (system.workers event.worker).emitted)
          ((system.incoming event).map Prod.snd).toList :
            Multiset (DataMessage K V T)) else 0) := by
  simp only [System.inFlight, System.moved_worker, System.moved_links, if_true,
    and_true, other, if_false, List.append_nil]
  by_cases taken : (system.incoming event).map Prod.fst = some source
  · obtain ⟨⟨remote, message⟩, incoming, rfl⟩ := Option.map_eq_some_iff.mp taken
    have first := (System.incoming_head incoming).2
    have isOpen := turned.isOpen _ incoming
    rw [incoming]
    simp only [Option.map_some, if_true, Option.toList_some]
    cases linkEquation : system.links remote event.worker with
    | nil => simp [linkEquation] at first
    | cons found rest =>
        simp only [linkEquation, List.head?_cons, Option.some.injEq] at first
        subst first
        rw [linkEquation] at paced
        have sees := (turned.take incoming paced).2
        have seen : (system.workers event.worker).seen remote =
            (system.workers event.worker).emitted := by
          simp [Worker.seen, isOpen.1]
        rw [sees, seen, List.tail_cons, Multiset.coe_add, Multiset.coe_eq_coe]
        rw [← List.singleton_append, beforeBarrier_append, Nat.sub_add_eq,
          List.countP_singleton]
        exact List.perm_append_comm
  · simp only [taken, if_false, add_zero]
    cases suspended :
        (system.workers event.worker).distributor.flags.sentSuspend source with
    | false =>
        rw [(turned.keep running steady inside other taken paced).2 suspended]
    | true =>
        rw [suspended] at paced
        rw [beforeBarrier_of_silent paced.noRecord,
          beforeBarrier_of_silent paced.noRecord]

theorem inFlight_same (turned : Turned partitioner workers system event worker
      output outgoing) (running : Running workers version system)
    (steady : Steady workers system event) (number : Nat)
    (paced : ∀ source ∈ workers, source ≠ event.worker →
      Paced (fun key => partitioner key workers) event.worker
        (system.workers source) ((system.workers event.worker).seen source)
        ((system.workers event.worker).distributor.flags.sentSuspend source)
        (system.links source event.worker))
    {ends : WorkerId × WorkerId} (inside : ends.1 ∈ workers)
    (apart : ends.1 ≠ ends.2)
    (noPush : ends.1 = event.worker →
      ∀ message ∈ Links.addressedTo ends.2 outgoing, message.record? = none)
    (noPop : ends.2 = event.worker →
      ∀ message, system.incoming event = some (ends.1, message) →
        message.record? = none) :
    (system.moved event.worker (system.incoming event) worker
      outgoing).inFlight number ends = system.inFlight number ends := by
  obtain ⟨source, target⟩ := ends
  by_cases isSource : source = event.worker
  · subst isSource
    rw [inFlight_source system number worker _ (Ne.symm apart),
      beforeBarrier_of_silent (noPush rfl)]
    exact add_zero _
  · by_cases isTarget : target = event.worker
    · subst isTarget
      have split := turned.inFlight_target running steady number inside isSource
        (paced source inside isSource)
      have nothing : (if (system.incoming event).map Prod.fst = some source then
          (beforeBarrier NetworkMessage.isBarrier NetworkMessage.record?
            (number - (system.workers event.worker).emitted)
            ((system.incoming event).map Prod.snd).toList :
              Multiset (DataMessage K V T)) else 0) = 0 := by
        split
        next taken =>
          obtain ⟨⟨remote, message⟩, incoming, rfl⟩ :=
            Option.map_eq_some_iff.mp taken
          rw [incoming, beforeBarrier_of_silent]
          · rfl
          · intro found member
            obtain rfl : found = message := by simpa using member
            exact noPop rfl _ incoming
        next => rfl
      rw [nothing, add_zero] at split
      exact split.symm
    · simp only [System.inFlight, System.moved_worker, System.moved_links,
        isSource, isTarget, if_false, and_false, List.append_nil]

theorem moved_recordsTaken (turned : Turned partitioner workers system event
      worker output outgoing) (member : event.worker ∈ workers) (number : Nat) :
    (system.moved event.worker (system.incoming event) worker
        outgoing).recordsTaken workers number =
      system.recordsTaken workers number +
        (beforeBarrier Message.isBarrier Message.data?
          (number - (system.workers event.worker).started)
          (system.received event) : Multiset (DataMessage K V T)) :=
  sum_gain (List.mem_toFinset.mpr member)
    (fun other _ different => by simp [System.moved_worker, different])
    (by simp [System.moved_worker, turned.recordsTaken])

theorem moved_recordsHanded (turned : Turned partitioner workers system event
      worker output outgoing) (member : event.worker ∈ workers) (number : Nat) :
    (system.moved event.worker (system.incoming event) worker
        outgoing).recordsHanded workers number =
      system.recordsHanded workers number +
        (beforeBarrier Message.isBarrier Message.data?
          (number - (system.workers event.worker).emitted) output :
            Multiset (DataMessage K V T)) :=
  sum_gain (List.mem_toFinset.mpr member)
    (fun other _ different => by simp [System.moved_worker, different])
    (by simp [System.moved_worker, turned.recordsHanded])

theorem link_same (turned : Turned partitioner workers system event worker
      output outgoing) (aligned : Aligned partitioner workers version system)
    (steady : Steady workers system event) (number : Nat)
    {ends : WorkerId × WorkerId}
    (member : ends ∈ workers.items.toFinset.offDiag)
    (noPush : ends.1 = event.worker →
      ∀ message ∈ Links.addressedTo ends.2 outgoing, message.record? = none)
    (noPop : ends.2 = event.worker →
      ∀ message, system.incoming event = some (ends.1, message) →
        message.record? = none) :
    (system.moved event.worker (system.incoming event) worker
      outgoing).inFlight number ends = system.inFlight number ends := by
  obtain ⟨inside, -, apart⟩ : ends.1 ∈ workers ∧ ends.2 ∈ workers ∧
      ends.1 ≠ ends.2 := by simpa [IndexSet.mem_def] using member
  exact turned.inFlight_same aligned.running steady number
    (fun source inside other =>
      aligned.paced source event.worker other inside steady.member)
    inside apart noPush noPop

theorem links_same (turned : Turned partitioner workers system event worker
      output outgoing) (aligned : Aligned partitioner workers version system)
    (steady : Steady workers system event) (number : Nat)
    (noPush : ∀ target, ∀ message ∈ Links.addressedTo target outgoing,
      message.record? = none)
    (noPop : ∀ arrived ∈ system.incoming event, arrived.2.record? = none) :
    ∑ ends ∈ workers.items.toFinset.offDiag,
      (system.moved event.worker (system.incoming event) worker
        outgoing).inFlight number ends =
    ∑ ends ∈ workers.items.toFinset.offDiag, system.inFlight number ends :=
  Finset.sum_congr rfl fun ends member =>
    turned.link_same aligned steady number member (fun _ => noPush ends.2)
      fun _ _ found => noPop _ found

/-- A record which is forwarded gets onto one link. -/
theorem links_forwarded {message : NetworkDataMessage K V T} {target : WorkerId}
    (turned : Turned partitioner workers system event worker output
      [(target, .data message)])
    (aligned : Aligned partitioner workers version system)
    (steady : Steady workers system event) (number : Nat)
    (inside : target ∈ workers) (away : target ≠ event.worker)
    (isOpen : (system.workers event.worker).isClosed = false)
    (incoming : system.incoming event = none) :
    ∑ ends ∈ workers.items.toFinset.offDiag,
      (system.moved event.worker (system.incoming event) worker
        [(target, .data message)]).inFlight number ends =
    ∑ ends ∈ workers.items.toFinset.offDiag, system.inFlight number ends +
      (beforeBarrier NetworkMessage.isBarrier NetworkMessage.record?
        (number - (system.workers event.worker).started) [.data message] :
          Multiset (DataMessage K V T)) := by
  have paced := aligned.paced event.worker target (Ne.symm away) steady.member
    inside
  have member : (event.worker, target) ∈ workers.items.toFinset.offDiag := by
    simpa [IndexSet.mem_def] using
      And.intro steady.member (And.intro inside (Ne.symm away))
  refine sum_gain member (fun other found different => ?_) ?_
  · refine turned.link_same aligned steady number found ?_ (by simp [incoming])
    intro isSource sent linked
    rw [Links.addressedTo_cons, Links.addressedTo_nil] at linked
    split at linked
    next isTarget => exact absurd (Prod.ext isSource isTarget.symm) different
    next => simp at linked
  · rw [inFlight_source system number worker _ away, Links.addressedTo_cons,
      if_pos rfl, Links.addressedTo_nil, Nat.sub_sub,
      paced.paced (paced.unsuspended isOpen).2]

/-- A record which arrives leaves one link. -/
theorem links_arrived {remote : WorkerId} {message : NetworkDataMessage K V T}
    (turned : Turned partitioner workers system event worker output [])
    (aligned : Aligned partitioner workers version system)
    (steady : Steady workers system event) (number : Nat)
    (inside : remote ∈ workers) (away : remote ≠ event.worker)
    (incoming : system.incoming event = some (remote, .data message)) :
    ∑ ends ∈ workers.items.toFinset.offDiag, system.inFlight number ends =
    ∑ ends ∈ workers.items.toFinset.offDiag,
      (system.moved event.worker (system.incoming event) worker []).inFlight
        number ends +
      (beforeBarrier NetworkMessage.isBarrier NetworkMessage.record?
        (number - (system.workers event.worker).emitted) [.data message] :
          Multiset (DataMessage K V T)) := by
  have member : (remote, event.worker) ∈ workers.items.toFinset.offDiag := by
    simpa [IndexSet.mem_def] using
      And.intro inside (And.intro steady.member away)
  refine sum_gain member (fun other found different => ?_) ?_
  · refine (turned.link_same aligned steady number found (by simp) ?_).symm
    intro isTarget sent linked
    rw [incoming] at linked
    simp only [Option.some.injEq, Prod.mk.injEq] at linked
    exact absurd (Prod.ext linked.1.symm isTarget) different
  · have split := turned.inFlight_target aligned.running steady number inside
      away (aligned.paced remote event.worker away inside steady.member)
    rw [incoming] at split ⊢
    simpa only [Option.map_some, if_true, Option.toList_some] using split

/-- Where no record moves, none gets lost. -/
theorem unchanged (turned : Turned partitioner workers system event worker
      output outgoing) (aligned : Aligned partitioner workers version system)
    (steady : Steady workers system event) (number : Nat)
    (noPush : ∀ target, ∀ message ∈ Links.addressedTo target outgoing,
      message.record? = none)
    (noPop : ∀ arrived ∈ system.incoming event, arrived.2.record? = none)
    (noTaken : ∀ message ∈ system.received event, message.data? = none)
    (noHanded : ∀ message ∈ output, message.data? = none) :
    (system.moved event.worker (system.incoming event) worker
        outgoing).recordsTaken workers number =
      (system.moved event.worker (system.incoming event) worker
        outgoing).recordsHanded workers number +
      ∑ ends ∈ workers.items.toFinset.offDiag,
        (system.moved event.worker (system.incoming event) worker
          outgoing).inFlight number ends := by
  rw [turned.moved_recordsTaken steady.member,
    turned.moved_recordsHanded steady.member,
    turned.links_same aligned steady number noPush noPop,
    beforeBarrier_of_silent noTaken, beforeBarrier_of_silent noHanded,
    Multiset.coe_nil, add_zero, add_zero]
  exact aligned.conserved number

theorem conserved (turned : Turned partitioner workers system event worker
      output outgoing) (aligned : Aligned partitioner workers version system)
    (steady : Steady workers system event) (number : Nat) :
    (system.moved event.worker (system.incoming event) worker
        outgoing).recordsTaken workers number =
      (system.moved event.worker (system.incoming event) worker
        outgoing).recordsHanded workers number +
      ∑ ends ∈ workers.items.toFinset.offDiag,
        (system.moved event.worker (system.incoming event) worker
          outgoing).inFlight number ends := by
  have taken := turned.moved_recordsTaken steady.member number
  have handed := turned.moved_recordsHanded steady.member number
  have unchanged := turned.unchanged aligned steady number
  have turn := turned.turn
  have free := aligned.pending event.worker steady.member
  have closed := steady.received
  have clients := aligned.running event.worker steady.member
  generalize receivedEquation : system.received event = received
    at turn taken unchanged closed
  obtain ⟨incoming, incomingEquation⟩ :
      ∃ incoming, system.incoming event = incoming := ⟨_, rfl⟩
  rw [incomingEquation] at turn
  generalize worker.distributor.flags = flags at turn
  cases turn with
  | silent silentIncoming silentReceived silentOutput silentOutgoing =>
      exact unchanged (fun target => (silent_addressed silentOutgoing).1)
        (fun arrived found =>
          (NetworkMessage.parts_of_isSilent
            (silentIncoming arrived (incomingEquation ▸ found))).1)
        (silent_countP silentReceived).2.2 (silent_countP silentOutput).2.2
  | kept notPending _ =>
      rw [notPending] at free
      rw [taken, handed,
        turned.links_same aligned steady number (by simp)
          (by simp [incomingEquation]),
        aligned.conserved number, ← free, Bool.toNat_false, add_zero]
      exact add_right_comm _ _ _
  | @forwarded message forwardedVersion _ away client =>
      have inside := (clients.2 _).mp client
      have isOpen := (closed (.data message) (by simp)).2
      rw [taken, handed, turned.links_forwarded aligned steady number inside.1
          away isOpen incomingEquation,
        aligned.conserved number, beforeBarrier_data, beforeBarrier_record,
        beforeBarrier_nil, Multiset.coe_nil, add_zero, add_assoc]
  | @arrived remote message =>
      have inside := (clients.2 _).mp (System.incoming_head incomingEquation).1
      rw [taken, handed, aligned.conserved number,
        turned.links_arrived aligned steady number inside.1 inside.2
          incomingEquation,
        beforeBarrier_nil, Multiset.coe_nil, add_zero, beforeBarrier_data,
        beforeBarrier_record, add_assoc, add_comm (Finset.sum _ _)]
  | localBarrier _ broadcast _ =>
      refine unchanged (fun target => ?_) (by simp [incomingEquation])
        (by simp [Message.data?]) (by simp)
      rcases broadcast target with empty | marker
      · simp [empty]
      · simp [marker, NetworkMessage.record?, NetworkMessage.data?]
  | localSuspend broadcast =>
      refine unchanged (fun target => ?_) (by simp [incomingEquation])
        (by simp [Message.data?]) (by simp)
      rcases broadcast target with empty | marker
      · simp [empty]
      · simp [marker, NetworkMessage.record?, NetworkMessage.data?]
  | barred =>
      exact unchanged (by simp)
        (by simp [incomingEquation, NetworkMessage.record?,
          NetworkMessage.data?]) (by simp) (by simp)
  | suspended =>
      exact unchanged (by simp)
        (by simp [incomingEquation, NetworkMessage.record?,
          NetworkMessage.data?]) (by simp) (by simp)
  | barrier _ _ | shutdown _ =>
      exact unchanged (by simp) (by simp [incomingEquation]) (by simp)
        (by simp [Message.data?])

end Turned

end

section

variable [DecidableEq K] [MaybeTime T] {job : Job K V T VO S L}
  {workers : IndexSet WorkerId} {version : Version}
  {system next : System K V T VO S L} {event : Event K V T}

theorem Aligned.step (aligned : Aligned job.partitioner workers version system)
    (steady : Steady workers system event)
    (stepped : system.step job event = .ok next) :
    Aligned job.partitioner workers version next := by
  have running := aligned.running event.worker steady.member
  have owned (remote : WorkerId) (message : NetworkDataMessage K V T)
      (found : system.incoming event = some (remote, .data message)) :
      job.partitioner message.content.key workers = event.worker := by
    obtain ⟨client, head⟩ := System.incoming_head found
    have inside := (running.2 remote).mp client
    exact (aligned.paced remote event.worker inside.2 inside.1
      steady.member).owned message (List.mem_of_head? head)
  rcases System.turned running.1 owned
    (fun message member => (steady.received message member).1) stepped with
    rfl | ⟨worker, output, outgoing, turned, rfl⟩
  · exact aligned
  refine ⟨?_, ?_, ?_, ?_, turned.conserved aligned steady⟩
  · intro other member
    rw [System.moved_worker]
    split
    next same =>
      subst same
      exact ⟨turned.router.trans running.1,
        fun remote => (turned.clients remote).trans (running.2 remote)⟩
    next => exact aligned.running other member
  · intro other member
    rw [System.moved_worker]
    split
    next => exact turned.pending (aligned.pending event.worker steady.member)
    next => exact aligned.pending other member
  · intro other member isShut remote inside different
    rw [System.moved_worker] at isShut ⊢
    split at isShut
    next same =>
      subst same
      rw [if_pos rfl]
      exact turned.shut aligned.running member (aligned.shut event.worker member)
        isShut remote inside different
    next elsewhere =>
      rw [if_neg elsewhere]
      exact aligned.shut other member isShut remote inside different
  · apply System.moved_pairwise (fun source target sender receiver link =>
      source ∈ workers → target ∈ workers →
        Paced (fun key => job.partitioner key workers) target sender
          (receiver.seen source) (receiver.distributor.flags.sentSuspend source)
          link)
    · exact aligned.paced
    · intro arrived found
      obtain ⟨client, head⟩ := System.incoming_head found
      exact ⟨((running.2 arrived.1).mp client).2, head⟩
    · intro target other before source inside
      exact turned.send aligned.running steady inside other (before source inside)
    · intro source other elsewhere before inside member
      exact (turned.keep aligned.running steady inside other elsewhere
        (before inside member)).1
    · intro source message rest _ found before inside member
      exact (turned.take found (before inside member)).1

end

/-! ### The cut -/

structure Idle (workers : IndexSet WorkerId) (version : Version)
    (system : System K V T VO S L) : Prop where
  running : Running workers version system
  flags : ∀ worker ∈ workers, (system.workers worker).distributor.flags =
    ⟨false, fun _ => false, fun _ => false⟩
  history : ∀ worker ∈ workers, (system.workers worker).taken = [] ∧
    (system.workers worker).handed = []
  links : ∀ source target, system.links source target = []

theorem Idle.initial (job : Job K V T VO S L) (workers : IndexSet WorkerId) :
    Idle workers 0 (System.initial job workers) where
  running := Running.initial job workers
  flags worker _ := by
    simp only [System.initial, Worker.build, Distributor.fresh,
      Distributor.flags, Remotes.get?_ofWorkers, Flags.mk.injEq, true_and]
    constructor <;> funext remote <;> split <;> rfl
  history _ _ := ⟨rfl, rfl⟩
  links _ _ := rfl

theorem Idle.aligned {partitioner : WorkerPartitioner K}
    {workers : IndexSet WorkerId} {version : Version}
    {system : System K V T VO S L} (idle : Idle workers version system) :
    Aligned partitioner workers version system where
  running := idle.running
  pending worker member := by
    simp [Worker.emitted, Worker.started, idle.history worker member,
      idle.flags worker member]
  shut worker member isShut := by
    simp [Worker.isShut, idle.history worker member] at isShut
  paced source target _ inside member := by
    rw [idle.links, idle.flags target member]
    exact ⟨by simp, trivial, by simp [viewAfter], fun _ => by
      simp [Worker.seen, Worker.emitted, Worker.started,
        idle.history target member, idle.history source inside,
        idle.flags target member]⟩
  conserved number := by
    have empty {worker : WorkerId} (member : worker ∈ workers.items.toFinset) :
        (system.workers worker).recordsTaken number = [] ∧
          (system.workers worker).recordsHanded number = [] := by
      have history := idle.history worker (List.mem_toFinset.mp member)
      simp [Worker.recordsTaken, Worker.recordsHanded, history]
    have taken : system.recordsTaken workers number = 0 :=
      Finset.sum_eq_zero fun worker member => by simp [empty member]
    have handed : system.recordsHanded workers number = 0 :=
      Finset.sum_eq_zero fun worker member => by simp [empty member]
    rw [taken, handed, zero_add]
    exact (Finset.sum_eq_zero fun ends _ => by
      simp [System.inFlight, idle.links]).symm

/-- The workers which have not handed their barrier of this number downstream
have nothing more to take from a link. -/
theorem Aligned.landed {partitioner : WorkerPartitioner K}
    {workers : IndexSet WorkerId} {version : Version}
    {system : System K V T VO S L}
    (aligned : Aligned partitioner workers version system) {number : Nat}
    (passed : ∀ worker ∈ workers, number ≤ (system.workers worker).emitted ∨
      (system.workers worker).isShut = true) :
    ∑ ends ∈ workers.items.toFinset.offDiag, system.inFlight number ends = 0 := by
  refine Finset.sum_eq_zero fun ends member => ?_
  simp only [Finset.mem_offDiag, List.mem_toFinset, ← IndexSet.mem_def] at member
  obtain ⟨source, target, apart⟩ := member
  rcases passed ends.2 target with emitted | isShut
  · have all : number - (system.workers ends.2).seen ends.1 = 0 := by
      unfold Worker.seen
      omega
    simp [System.inFlight, all]
  · have paced := aligned.paced ends.1 ends.2 apart source target
    rw [aligned.shut ends.2 target isShut ends.1 source apart] at paced
    simp [System.inFlight, beforeBarrier_of_silent paced.noRecord]

/-- The barriers of all workers are a consistent cut: nothing is handed
downstream before a barrier but what was taken in before one, and all of it
has been once every worker has passed the barrier on or is shut down.  No
record taken in behind a barrier is handed downstream before one. -/
theorem snapshot_consistent [DecidableEq K] [MaybeTime T]
    {job : Job K V T VO S L} {workers : IndexSet WorkerId} {version : Version}
    {start system : System K V T VO S L} (idle : Idle workers version start)
    (run : Reaches (fun state event => state.step job event) (Steady workers)
      start system) (number : Nat) :
    system.recordsHanded workers number ≤ system.recordsTaken workers number ∧
    ((∀ worker ∈ workers, number ≤ (system.workers worker).emitted ∨
        (system.workers worker).isShut = true) →
      system.recordsHanded workers number =
        system.recordsTaken workers number) ∧
    ((∑ worker ∈ workers.items.toFinset,
        ((system.workers worker).taken.filterMap Message.data? :
          Multiset (DataMessage K V T))).Nodup →
      ∀ worker ∈ workers, ∀ record ∈ afterBarrier Message.isBarrier
          Message.data? number (system.workers worker).taken,
        ∀ other ∈ workers,
          record ∉ (system.workers other).recordsHanded number) := by
  have aligned : Aligned job.partitioner workers version system :=
    run.invariant _ idle.aligned fun _ _ _ _ aligned steady stepped =>
      aligned.step steady stepped
  have conserved := aligned.conserved number
  have atMost : system.recordsHanded workers number ≤
      system.recordsTaken workers number := by
    rw [conserved]
    exact Multiset.le_add_right _ _
  refine ⟨atMost, fun passed => ?_, ?_⟩
  · rw [conserved, aligned.landed passed, add_zero]
  · intro nodup worker member record behind other inside handed
    have split : (∑ worker ∈ workers.items.toFinset,
        ((system.workers worker).taken.filterMap Message.data? :
          Multiset (DataMessage K V T))) =
        system.recordsTaken workers number + ∑ worker ∈ workers.items.toFinset,
          (afterBarrier Message.isBarrier Message.data? number
            (system.workers worker).taken : Multiset (DataMessage K V T)) := by
      rw [System.recordsTaken, ← Finset.sum_add_distrib]
      refine Finset.sum_congr rfl fun each _ => ?_
      rw [Worker.recordsTaken, Multiset.coe_add,
        beforeBarrier_append_afterBarrier]
      intro message barrier
      cases message <;> first | rfl | simp [Message.isBarrier] at barrier
    rw [split, Multiset.nodup_add] at nodup
    have early : record ∈ system.recordsTaken workers number :=
      Multiset.mem_of_le atMost (Multiset.mem_sum.mpr
        ⟨other, List.mem_toFinset.mpr inside, handed⟩)
    have late : record ∈ ∑ worker ∈ workers.items.toFinset,
        (afterBarrier Message.isBarrier Message.data? number
          (system.workers worker).taken : Multiset (DataMessage K V T)) :=
      Multiset.mem_sum.mpr ⟨worker, List.mem_toFinset.mpr member, behind⟩
    exact Multiset.disjoint_left.mp nodup.2.2 early late

/-- Both workers of a fresh job take a record and a barrier, worker 1 sends the
record of worker 0's key over, and both pass the barrier on. -/
def cutTrace : List (Event Nat Unit Nat) :=
  [.receiveLocal 0 (.data ⟨1, (), 0⟩), .receiveLocal 1 (.data ⟨0, (), 0⟩),
    .receiveLocal 0 .absBarrier, .receiveLocal 1 .absBarrier,
    .receiveRemote 0 1, .receiveRemote 0 1, .receiveRemote 1 0,
    .receiveRemote 1 0, .tryEmitBarrier 0, .receiveLocal 0 (.data ⟨2, (), 1⟩),
    .tryEmitBarrier 1]

@[irreducible] def cutState : System Nat Unit Nat Nat Nat Unit :=
  replay (fun state event => System.step countJob state event)
    (System.initial countJob (IndexSet.ofList [0, 1])) cutTrace

theorem cut_consistent :
    cutState.recordsHanded ⟨[0, 1], by decide⟩ 1 =
      cutState.recordsTaken ⟨[0, 1], by decide⟩ 1 := by
  have idle : Idle ⟨[0, 1], by decide⟩ 0
      (System.initial countJob ⟨[0, 1], by decide⟩) :=
    Idle.initial countJob _
  have run : Reaches (fun state event => System.step countJob state event)
      (Steady ⟨[0, 1], by decide⟩)
      (System.initial countJob ⟨[0, 1], by decide⟩) cutState := by
    unfold cutState
    exact Follows.reaches cutTrace .refl (by decide +kernel)
  exact (snapshot_consistent idle run 1).2.1 (by decide +kernel)

end Malstrom.Keyed
