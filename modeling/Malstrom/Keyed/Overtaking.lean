import Malstrom.Keyed.Order

namespace Malstrom.Keyed

open Data Operators

variable {K V T VO S L : Type}

/-! The order of two records over a whole rescale. -/

def dispatched (outgoing : List (WorkerId × NetworkMessage K V T)) :
    List (WorkerId × DataMessage K V T) :=
  outgoing.filterMap fun addressed =>
    addressed.2.record?.map fun record => (addressed.1, record)

theorem dispatched_append
    (before after : List (WorkerId × NetworkMessage K V T)) :
    dispatched (before ++ after) = dispatched before ++ dispatched after :=
  List.filterMap_append

theorem record?_eq_some {message : NetworkMessage K V T}
    {record : DataMessage K V T} :
    message.record? = some record ↔ ∃ version, message = .data ⟨record, version⟩ := by
  cases message with
  | data message =>
      obtain ⟨content, version⟩ := message
      simp [NetworkMessage.record?, NetworkMessage.data?]
  | epoch | barrierMarker | suspendMarker | acquire | upgrade | ackUpgrade =>
      simp [NetworkMessage.record?, NetworkMessage.data?]

theorem mem_dispatched {outgoing : List (WorkerId × NetworkMessage K V T)}
    {target : WorkerId} {record : DataMessage K V T} :
    (target, record) ∈ dispatched outgoing ↔
      ∃ version, (target, .data ⟨record, version⟩) ∈ outgoing := by
  simp only [dispatched, List.mem_filterMap, Option.map_eq_some_iff,
    record?_eq_some, Prod.mk.injEq]
  constructor
  · rintro ⟨⟨_, _⟩, member, _, ⟨version, rfl⟩, rfl, rfl⟩
    exact ⟨version, member⟩
  · rintro ⟨version, member⟩
    exact ⟨_, member, _, ⟨version, rfl⟩, rfl, rfl⟩

theorem records_addressedTo (target : WorkerId)
    (outgoing : List (WorkerId × NetworkMessage K V T)) :
    (Links.addressedTo target outgoing).filterMap NetworkMessage.record? =
      ((dispatched outgoing).filter fun addressed =>
        decide (addressed.1 = target)).map Prod.snd := by
  induction outgoing with
  | nil => rfl
  | cons addressed rest ih =>
      obtain ⟨place, message⟩ := addressed
      rw [Links.addressedTo_cons]
      cases isRecord : message.record? with
      | none =>
          have skipped : dispatched ((place, message) :: rest) = dispatched rest :=
            List.filterMap_cons_none (by simp [isRecord])
          rw [skipped, ← ih]
          split
          · exact List.filterMap_cons_none isRecord
          · rfl
      | some record =>
          have carried : dispatched ((place, message) :: rest) =
              (place, record) :: dispatched rest :=
            List.filterMap_cons_some (by simp [isRecord])
          rw [carried]
          by_cases same : place = target
          · rw [if_pos same, List.filterMap_cons_some isRecord, ih,
              List.filter_cons_of_pos (by simpa using same), List.map_cons]
          · rw [if_neg same, ih, List.filter_cons_of_neg (by simpa using same)]

namespace Worker

def Sent (current : Worker K V T VO S L) (record : DataMessage K V T)
    (target : WorkerId) : Prop :=
  (target, record) ∈ dispatched current.sent

def Handed (current : Worker K V T VO S L) (record : DataMessage K V T) :
    Prop :=
  record ∈ current.handed.filterMap Message.data?

/-- The worker has sent the record on, or holds it back. -/
def Passed (current : Worker K V T VO S L) (record : DataMessage K V T) :
    Prop :=
  (∃ target, current.Sent record target) ∨
    record ∈ current.distributor.router.buffered

/-- What comes next to the target goes where the record has gone, or is held
back behind it. -/
def Trails (current : Worker K V T VO S L) (record : DataMessage K V T) :
    Option WorkerId → Prop
  | some target => current.Sent record target
  | none => record ∈ current.distributor.router.buffered

instance [DecidableEq K] [DecidableEq V] [DecidableEq T]
    (current : Worker K V T VO S L) (record : DataMessage K V T) :
    Decidable (current.Handed record) :=
  inferInstanceAs (Decidable (_ ∈ _))

end Worker

section

variable {μ ρ : Type} {record? : μ → Option ρ} {first second : ρ}
  {passed : Prop} {messages : List μ}

theorem behind_records :
    Behind record? first second passed messages ↔
      Behind some first second passed (messages.filterMap record?) := by
  induction messages generalizing passed with
  | nil => exact Iff.rfl
  | cons message rest ih =>
      have split : Behind record? first second passed (message :: rest) ↔
          (record? message = some second → passed) ∧
            Behind record? first second
              (passed ∨ record? message = some first) rest := Iff.rfl
      rw [split, ih]
      cases isRecord : record? message with
      | none =>
          rw [List.filterMap_cons_none isRecord]
          simp
      | some record =>
          rw [List.filterMap_cons_some isRecord]
          exact Iff.rfl

theorem behind_filter {records : List ρ} {keep : ρ → Bool}
    (behind : Behind some first second passed records)
    (together : keep second = true → keep first = true) :
    Behind some first second passed (records.filter keep) := by
  induction records generalizing passed with
  | nil => trivial
  | cons record rest ih =>
      cases isKept : keep record with
      | true =>
          rw [List.filter_cons_of_pos isKept]
          exact ⟨behind.1, ih behind.2⟩
      | false =>
          rw [List.filter_cons_of_neg (by simp [isKept])]
          by_cases isFirst : record = first
          · refine behind_without fun later member isSecond => ?_
            obtain rfl := Option.some.inj isSecond
            rw [isFirst, together (List.mem_filter.mp member).2] at isKept
            cases isKept
          · have after : Behind some first second
                (passed ∨ some record = some first) rest := behind.2
            refine ih (after.mono ?_)
            rintro (before | same)
            · exact before
            · exact absurd (Option.some.inj same) isFirst

end

namespace Rescale

inductive Passage [DecidableEq K] (rescale : Rescale)
    (partitioner : WorkerPartitioner K) (thisWorker : WorkerId)
    (current next : Worker K V T VO S L) :
    Option (WorkerId × NetworkMessage K V T) → List (Message K V T) →
      List (WorkerId × NetworkMessage K V T) → Prop
  | rests {incoming : Option (WorkerId × NetworkMessage K V T)}
      {received : List (Message K V T)}
      {outgoing : List (WorkerId × NetworkMessage K V T)}
      (noneArrives : ∀ arrived ∈ incoming, arrived.2.record? = none)
      (noneEnters : received.filterMap Message.data? = [])
      (sends : dispatched outgoing = [])
      (holds : next.distributor.router.buffered =
        current.distributor.router.buffered)
      (hands : next.handed.filterMap Message.data? =
        current.handed.filterMap Message.data?) :
      Passage rescale partitioner thisWorker current next incoming received
        outgoing
  | releases {outgoing : List (WorkerId × NetworkMessage K V T)}
      (sends : dispatched outgoing =
        current.distributor.router.buffered.map fun record =>
          (partitioner record.key rescale.new, record))
      (holds : next.distributor.router.buffered = [])
      (hands : next.handed.filterMap Message.data? =
        current.handed.filterMap Message.data?) :
      Passage rescale partitioner thisWorker current next none [] outgoing
  | routes {incoming : Option (WorkerId × NetworkMessage K V T)}
      {received : List (Message K V T)}
      {outgoing : List (WorkerId × NetworkMessage K V T)}
      {arrival : Arrival K V T} {target : Option WorkerId}
      (arrives : arrivalOf thisWorker incoming received = some arrival)
      (routed : Routed partitioner thisWorker current.distributor.remotes
        arrival current.distributor.router next.distributor.router target)
      (sends : dispatched outgoing =
        (target.toList.filter fun worker => decide (worker ≠ thisWorker)).map
          fun worker => (worker, arrival.message))
      (holds : next.distributor.router.buffered =
        current.distributor.router.buffered ++
          if target = none then [arrival.message] else [])
      (hands : next.handed.filterMap Message.data? =
        current.handed.filterMap Message.data? ++
          if target = some thisWorker then [arrival.message] else []) :
      Passage rescale partitioner thisWorker current next incoming received
        outgoing

section

variable [DecidableEq K] [MaybeTime T] {job : Job K V T VO S L}
  {rescale : Rescale} {thisWorker : WorkerId}
  {current next : Worker K V T VO S L}
  {incoming : Option (WorkerId × NetworkMessage K V T)}
  {received : List (Message K V T)} {operated : Option (Message K V T)}
  {outgoing : List (WorkerId × NetworkMessage K V T)}

omit [DecidableEq K] [MaybeTime T] in
theorem data?_of_isQuiet {message : Message K V T}
    (quiet : message.isQuiet = true) : message.data? = none := by
  cases message <;> first | rfl | simp [Message.isQuiet] at quiet

omit [DecidableEq K] [MaybeTime T] in
theorem dispatched_silent
    (silent : ∀ addressed ∈ outgoing, addressed.2.record? = none) :
    dispatched outgoing = [] := by
  rw [dispatched, List.filterMap_eq_nil_iff]
  intro addressed member
  rw [silent addressed member, Option.map_none]

omit [DecidableEq K] [MaybeTime T] in
theorem dispatched_released {router released : CollectRouter K V T}
    {network : List (WorkerId × NetworkMessage K V T)}
    (tidy : rescale.Tidy job.partitioner thisWorker current.distributor.router)
    (shape : rescale.Shape job.partitioner thisWorker current)
    (collecting : current.distributor.router = .collect router)
    (release : Released job.partitioner current.distributor.remotes
      current.clones router released network) :
    dispatched network = (router.buffered.map fun record =>
        (job.partitioner record.key rescale.new, record)) ∧
      released.buffered = [] := by
  have new := (shape.collecting_sets collecting).2
  have bundled := tidy.bundled
  rw [collecting] at bundled
  cases release with
  | idle idle =>
      have empty : router.buffered = [] := by
        refine List.eq_nil_iff_forall_not_mem.mpr fun record isHeld => ?_
        have isCurrent := bundled record isHeld
        simp [MessageRouter.currentKey, CollectRouter.currentKey, idle]
          at isCurrent
      rw [empty]
      exact ⟨rfl, rfl⟩
  | @released collect _ isCurrent _ =>
      refine ⟨?_, rfl⟩
      have skipped (rest : List (WorkerId × NetworkMessage K V T)) :
          dispatched ((job.partitioner collect.key router.newWorkerSet,
            .acquire ⟨collect.key, collect.collection⟩) :: rest) =
              dispatched rest :=
        List.filterMap_cons_none rfl
      rw [skipped, dispatched, List.filterMap_map, new]
      have each : ∀ record ∈ router.buffered,
          collect.key = record.key := fun record isHeld => by
        simpa [CollectRouter.currentKey, MessageRouter.currentKey, isCurrent]
          using bundled record isHeld
      rw [← List.filterMap_eq_map]
      refine List.filterMap_congr fun record isHeld => ?_
      simp [NetworkMessage.record?, NetworkMessage.data?, each record isHeld]

theorem passage_of_move
    (tidy : rescale.Tidy job.partitioner thisWorker current.distributor.router)
    (shape : rescale.Shape job.partitioner thisWorker current)
    (move : Move job thisWorker current incoming received operated next
      outgoing) :
    rescale.Passage job.partitioner thisWorker current next incoming received
      outgoing := by
  have nobody : ∀ arrived ∈ (none : Option (WorkerId × NetworkMessage K V T)),
      arrived.2.record? = none :=
    fun arrived found => absurd found (Option.not_mem_none arrived)
  cases move with
  | quiet sameRouter _ quietOutput quietNetwork quietIncoming quietReceived =>
      refine .rests (fun arrived found =>
        record?_of_isQuiet (quietIncoming arrived found)) ?_ ?_ ?_ ?_
      · exact List.filterMap_eq_nil_iff.mpr fun message member =>
          (quietReceived message member).1
      · exact dispatched_silent fun addressed member =>
          record?_of_isQuiet (quietNetwork addressed member)
      · exact congrArg MessageRouter.buffered sameRouter
      · have noRecord : current.handed.filterMap Message.data? ++
            _ = current.handed.filterMap Message.data? ++ [] :=
          congrArg _ (List.filterMap_eq_nil_iff.mpr fun message member =>
            data?_of_isQuiet (quietOutput message member))
        simpa only [Worker.after, List.filterMap_append, List.append_nil]
          using noRecord
  | kept arrives routed =>
      refine .routes arrives routed ?_ ?_ ?_
      · simp [dispatched]
      · simp [Worker.after, (buffered_of_routed routed).1]
      · simp [Worker.after, Message.data?]
  | buffered arrives routed => 
      refine .routes arrives routed ?_ ?_ ?_
      · simp [dispatched]
      · cases shape.course routed with
        | buffered collecting _ _ _ _ =>
            simp [Worker.after, collecting, MessageRouter.buffered]
      · simp [Worker.after]
  | forwarded arrives routed other _ =>
      refine .routes arrives routed ?_ ?_ ?_
      · simp [dispatched, other, NetworkMessage.record?, NetworkMessage.data?]
      · simp [Worker.after, (buffered_of_routed routed).1]
      · simp [Worker.after, other]
  | acquire =>
      exact .rests (by simp [NetworkMessage.record?, NetworkMessage.data?]) rfl
        rfl rfl (by simp [Worker.after, Message.data?])
  | upgrade => 
      exact .rests (by simp [NetworkMessage.record?, NetworkMessage.data?]) rfl
        rfl rfl (by simp [Worker.after])
  | ackUpgrade => 
      exact .rests (by simp [NetworkMessage.record?, NetworkMessage.data?]) rfl
        rfl rfl (by simp [Worker.after])
  | rescale waiting =>
      refine .rests nobody rfl rfl ?_ (by simp [Worker.after, Message.data?])
      rw [waiting]
      rfl
  | rescaleCopy => exact .rests nobody rfl rfl rfl (by simp [Worker.after])
  | interrogated interrogating _ =>
      refine .rests nobody rfl rfl ?_ (by simp [Worker.after])
      rw [interrogating]
      rfl
  | collectNext collecting release _ =>
      obtain ⟨sends, holds⟩ := dispatched_released tidy shape collecting release
      refine .releases ?_ holds (by simp [Worker.after, Message.data?])
      rw [collecting]
      exact sends
  | @concluded router released network collecting release _ =>
      obtain ⟨sends, -⟩ := dispatched_released tidy shape collecting release
      refine .releases ?_ rfl (by simp [Worker.after])
      have announced : dispatched (broadcast current.distributor.remotes
          (.upgrade router.version : NetworkMessage K V T)) = [] :=
        dispatched_silent (by
          simp [broadcast, NetworkMessage.record?, NetworkMessage.data?])
      rw [dispatched_append, announced, List.append_nil, collecting]
      exact sends
  | finished finished _ =>
      refine .rests nobody rfl rfl ?_ (by simp [Worker.after, Message.data?])
      rw [finished]
      rfl
  | scheduled | sink => exact .rests nobody rfl rfl rfl rfl
  | @received _ _ _ _ _ report _ _ reports =>
      refine .rests nobody rfl rfl ?_ rfl
      rw [reports]
      exact (buffered_takeReport current.distributor report).1

end

/-! ### While the first record is under way -/

def Handed (rescale : Rescale) (system : System K V T VO S L)
    (record : DataMessage K V T) : Prop :=
  ∃ worker ∈ rescale.participants, (system.workers worker).Handed record

instance [DecidableEq K] [DecidableEq V] [DecidableEq T] (rescale : Rescale)
    (system : System K V T VO S L) (record : DataMessage K V T) :
    Decidable (rescale.Handed system record) :=
  decidable_of_iff (∃ worker ∈ rescale.participants.items,
    (system.workers worker).Handed record) Iff.rfl

def routeOf [DecidableEq K] (partitioner : WorkerPartitioner K)
    (system : System K V T VO S L) (worker : WorkerId)
    (arrival : Arrival K V T) : Option (DataMessage K V T × WorkerId) :=
  let distributor := (system.workers worker).distributor
  (distributor.router.routeMessage arrival.message arrival.version partitioner
    worker arrival.sender distributor.remotes).2

/-- The second record enters where the first has been taken before.  As long as
the first has not been handed on, a worker which has sent it to another one
than the new owner sends the second after it. -/
structure Paced [DecidableEq K] (rescale : Rescale)
    (partitioner : WorkerPartitioner K) (first second : DataMessage K V T)
    (system : System K V T VO S L) (event : Event K V T) : Prop where
  permitted : rescale.Permits system event
  enters : second ∈ (system.received event).filterMap Message.data? →
    first ∈ (system.workers event.worker).taken.filterMap Message.data?
  keepsPace : ¬rescale.Handed system first →
    ∀ arrival ∈ system.arrival event, arrival.message = second →
      (∃ addressed ∈ dispatched (system.workers event.worker).sent,
        addressed.2 = first ∧
          addressed.1 ≠ partitioner first.key rescale.new) →
      ∃ addressed ∈ dispatched (system.workers event.worker).sent,
        addressed.2 = first ∧
          routeOf partitioner system event.worker arrival =
            some (second, addressed.1)

instance [DecidableEq K] [DecidableEq V] [DecidableEq T] (rescale : Rescale)
    (partitioner : WorkerPartitioner K) (first second : DataMessage K V T)
    (system : System K V T VO S L) (event : Event K V T) :
    Decidable (rescale.Paced partitioner first second system event) :=
  decidable_of_iff (rescale.Permits system event ∧
      (second ∈ (system.received event).filterMap Message.data? →
        first ∈ (system.workers event.worker).taken.filterMap Message.data?) ∧
      (¬rescale.Handed system first →
        ∀ arrival ∈ system.arrival event, arrival.message = second →
          (∃ addressed ∈ dispatched (system.workers event.worker).sent,
            addressed.2 = first ∧
              addressed.1 ≠ partitioner first.key rescale.new) →
          ∃ addressed ∈ dispatched (system.workers event.worker).sent,
            addressed.2 = first ∧
              routeOf partitioner system event.worker arrival =
                some (second, addressed.1)))
    ⟨fun all => ⟨all.1, all.2.1, all.2.2⟩, fun paced =>
      ⟨paced.permitted, paced.enters, paced.keepsPace⟩⟩

/-- What the second record meets on a link while the first is under way. -/
structure Lane (rescale : Rescale) (partitioner : WorkerPartitioner K)
    (first second : DataMessage K V T) (source target : WorkerId)
    (sender receiver : Worker K V T VO S L)
    (link : List (NetworkMessage K V T)) : Prop where
  behind : Behind NetworkMessage.record? first second (receiver.Passed first)
    link
  arrives : source ∈ rescale.participants → sender.Sent first target →
    first ∈ link.filterMap NetworkMessage.record? ∨ receiver.Passed first
  addressed : ∀ version, .data ⟨second, version⟩ ∈ link →
    rescale.Addressed partitioner first.key source target version

/-- What a worker does with the second record while the first is under way. -/
structure Orderly (rescale : Rescale) (partitioner : WorkerPartitioner K)
    (first second : DataMessage K V T) (thisWorker : WorkerId)
    (current : Worker K V T VO S L) : Prop where
  tidy : rescale.Tidy partitioner thisWorker current.distributor.router
  entered : first ∈ current.taken.filterMap Message.data? →
    current.Passed first
  elsewhere : ∀ target, current.Sent first target → target ≠ thisWorker
  settles : current.Sent first (partitioner first.key rescale.new) →
    rescale.Settles partitioner first.key current.distributor.router
  behind : Behind some first second False current.distributor.router.buffered
  unhanded : ¬current.Handed second

/-- The second record is behind the first wherever it is. -/
structure Trailing (rescale : Rescale) (partitioner : WorkerPartitioner K)
    (first second : DataMessage K V T) (system : System K V T VO S L) :
    Prop where
  workers : ∀ worker ∈ rescale.participants,
    rescale.Orderly partitioner first second worker (system.workers worker)
  lanes : ∀ source target, source ≠ target →
    rescale.Lane partitioner first second source target
      (system.workers source) (system.workers target)
      (system.links source target)

section

variable [DecidableEq K] [MaybeTime T] {job : Job K V T VO S L}
  {rescale : Rescale} {thisWorker : WorkerId}
  {current next : Worker K V T VO S L}
  {incoming : Option (WorkerId × NetworkMessage K V T)}
  {received : List (Message K V T)} {operated : Option (Message K V T)}
  {outgoing : List (WorkerId × NetworkMessage K V T)}
  {first second : DataMessage K V T}

omit [DecidableEq K] [MaybeTime T] in
theorem sent_append (sent : next.sent = current.sent ++ outgoing)
    {record : DataMessage K V T} {target : WorkerId} :
    next.Sent record target ↔
      current.Sent record target ∨ (target, record) ∈ dispatched outgoing := by
  rw [Worker.Sent, sent, dispatched_append, List.mem_append]
  exact Iff.rfl

omit [MaybeTime T] in
theorem Passage.passed
    (passage : rescale.Passage job.partitioner thisWorker current next incoming
      received outgoing)
    (sent : next.sent = current.sent ++ outgoing)
    (passed : current.Passed first) : next.Passed first := by
  rcases passed with ⟨target, isSent⟩ | isHeld
  · exact .inl ⟨target, (sent_append sent).mpr (.inl isSent)⟩
  · cases passage with
    | rests _ _ _ holds _ =>
        rw [← holds] at isHeld
        exact .inr isHeld
    | releases sends _ _ =>
        refine .inl ⟨job.partitioner first.key rescale.new,
          (sent_append sent).mpr (.inr ?_)⟩
        rw [sends]
        exact List.mem_map_of_mem isHeld
    | routes _ _ _ holds _ =>
        refine .inr ?_
        rw [holds]
        exact List.mem_append_left _ isHeld

omit [MaybeTime T] in
theorem Passage.arrived {arrival : Arrival K V T}
    (passage : rescale.Passage job.partitioner thisWorker current next incoming
      received outgoing)
    (sent : next.sent = current.sent ++ outgoing)
    (arrives : arrivalOf thisWorker incoming received = some arrival) :
    next.Passed arrival.message ∨ next.Handed arrival.message := by
  cases passage with
  | rests noneArrives noneEnters _ _ _ =>
      rcases arrivalOf_cases arrives with ⟨version, rfl, -⟩ | ⟨-, rfl, -⟩
      · simpa [NetworkMessage.record?, NetworkMessage.data?]
          using noneArrives _ rfl
      · simp [Message.data?] at noneEnters
  | releases => cases arrives
  | @routes _ _ _ arrival' target arrives' _ sends holds hands =>
      obtain rfl : arrival' = arrival :=
        Option.some.inj (arrives'.symm.trans arrives)
      cases target with
      | none =>
          refine .inl (.inr ?_)
          rw [holds]
          exact List.mem_append_right _ (.head _)
      | some target =>
          by_cases here : target = thisWorker
          · refine .inr ?_
            rw [Worker.Handed, hands, here]
            exact List.mem_append_right _ (by simp)
          · refine .inl (.inl ⟨target, (sent_append sent).mpr (.inr ?_)⟩)
            rw [sends]
            simp [here]

omit [MaybeTime T] in
theorem Passage.entering
    (passage : rescale.Passage job.partitioner thisWorker current next incoming
      received outgoing)
    (enters : first ∈ received.filterMap Message.data?) :
    ∃ arrival, arrivalOf thisWorker incoming received = some arrival ∧
      arrival.message = first := by
  cases passage with
  | rests _ noneEnters _ _ _ => simp [noneEnters] at enters
  | releases => cases enters
  | @routes _ _ _ arrival _ arrives _ _ _ _ =>
      refine ⟨arrival, arrives, ?_⟩
      rcases arrivalOf_cases arrives with ⟨_, -, rfl, -⟩ | ⟨-, rfl, -⟩
      · cases enters
      · simpa [Message.data?, eq_comm] using enters

omit [MaybeTime T] in
theorem Passage.arriving {source : WorkerId} {message : NetworkMessage K V T}
    (passage : rescale.Passage job.partitioner thisWorker current next incoming
      received outgoing) (isIncoming : incoming = some (source, message))
    (carries : message.record? = some first) :
    ∃ arrival, arrivalOf thisWorker incoming received = some arrival ∧
      arrival.message = first := by
  cases passage with
  | rests noneArrives _ _ _ _ =>
      rw [noneArrives _ isIncoming] at carries
      cases carries
  | releases => cases isIncoming
  | @routes _ _ _ arrival _ arrives _ _ _ _ =>
      refine ⟨arrival, arrives, ?_⟩
      rcases arrivalOf_cases arrives with ⟨_, rfl, -, -⟩ | ⟨rfl, -, -⟩
      · obtain ⟨rfl, rfl⟩ := Prod.mk.inj (Option.some.inj isIncoming)
        exact Option.some.inj carries
      · cases isIncoming

omit [MaybeTime T] in
theorem Passage.orderly
    (orderly : rescale.Orderly job.partitioner first second thisWorker current)
    (passage : rescale.Passage job.partitioner thisWorker current next incoming
      received outgoing)
    (sent : next.sent = current.sent ++ outgoing)
    (taken : next.taken = current.taken ++ received)
    (trails : ∀ arrival router target,
      arrivalOf thisWorker incoming received = some arrival →
      arrival.message = second →
      Routed job.partitioner thisWorker current.distributor.remotes arrival
        current.distributor.router router target →
      current.Trails first target)
    (tidy : rescale.Tidy job.partitioner thisWorker next.distributor.router)
    (settles : next.Sent first (job.partitioner first.key rescale.new) →
      rescale.Settles job.partitioner first.key next.distributor.router)
    (unhanded : ¬next.Handed first) :
    rescale.Orderly job.partitioner first second thisWorker next where
  tidy := tidy
  entered isTaken := by
    rw [taken, List.filterMap_append, List.mem_append] at isTaken
    rcases isTaken with before | now
    · exact passage.passed sent (orderly.entered before)
    · obtain ⟨arrival, arrives, rfl⟩ := passage.entering now
      exact (passage.arrived sent arrives).resolve_right unhanded
  elsewhere target isSent := by
    rcases (sent_append sent).mp isSent with before | now
    · exact orderly.elsewhere target before
    · cases passage with
      | rests _ _ sends _ _ => simp [sends] at now
      | releases sends _ _ =>
          rw [sends, List.mem_map] at now
          obtain ⟨record, isHeld, equation⟩ := now
          obtain ⟨rfl, rfl⟩ := Prod.mk.inj equation
          exact orderly.tidy.away record isHeld
      | routes _ _ sends _ _ =>
          rw [sends] at now
          obtain ⟨worker, kept, equation⟩ := List.mem_map.mp now
          obtain ⟨rfl, -⟩ := Prod.mk.inj equation
          exact of_decide_eq_true (List.mem_filter.mp kept).2
  settles := settles
  behind := by
    cases passage with
    | rests _ _ _ holds _ => rw [holds]; exact orderly.behind
    | releases _ holds _ => rw [holds]; trivial
    | @routes _ _ _ arrival target arrives routed _ holds _ =>
        rw [holds, behind_append]
        refine ⟨orderly.behind, ?_⟩
        cases target with
        | some => exact trivial
        | none =>
            refine ⟨fun isSecond => .inr ⟨first, ?_, rfl⟩, trivial⟩
            exact trails arrival _ none arrives (Option.some.inj isSecond) routed
  unhanded := by
    cases passage with
    | rests _ _ _ _ hands | releases _ _ hands =>
        rw [Worker.Handed, hands]
        exact orderly.unhanded
    | @routes _ _ _ arrival target arrives routed _ _ hands =>
        rw [Worker.Handed, hands, List.mem_append]
        rintro (before | now)
        · exact orderly.unhanded before
        · split at now
          next here =>
            have isSecond : arrival.message = second :=
              (List.mem_singleton.mp now).symm
            have isSent := trails arrival _ target arrives isSecond routed
            rw [here] at isSent
            exact orderly.elsewhere thisWorker isSent rfl
          next => simp at now

omit [MaybeTime T] in
theorem Passage.behind {target : WorkerId} {passed : Prop}
    (sameKey : second.key = first.key)
    (orderly : rescale.Orderly job.partitioner first second thisWorker current)
    (passage : rescale.Passage job.partitioner thisWorker current next incoming
      received outgoing)
    (trails : ∀ arrival router target,
      arrivalOf thisWorker incoming received = some arrival →
      arrival.message = second →
      Routed job.partitioner thisWorker current.distributor.remotes arrival
        current.distributor.router router target →
      current.Trails first target)
    (arrives : current.Sent first target → passed) :
    Behind NetworkMessage.record? first second passed
      (Links.addressedTo target outgoing) := by
  rw [behind_records, records_addressedTo]
  cases passage with
  | rests _ _ sends _ _ =>
      rw [sends]
      trivial
  | releases sends _ _ =>
      have held : Behind some first second passed
          (current.distributor.router.buffered.filter fun record =>
            decide (job.partitioner record.key rescale.new = target)) :=
        behind_filter (orderly.behind.mono False.elim) (by simp [sameKey])
      rw [sends, List.filter_map, List.map_map]
      simpa [Function.comp_def] using held
  | @routes _ _ _ arrival place isArrival routed sends _ _ =>
      rw [sends]
      cases place with
      | none => trivial
      | some place =>
          by_cases here : place = thisWorker
          · simp [here, Behind]
          · by_cases same : place = target
            · subst same
              have single : ((([place].filter fun worker =>
                  decide (worker ≠ thisWorker)).map fun worker =>
                    (worker, arrival.message)).filter fun addressed =>
                      decide (addressed.1 = place)).map Prod.snd =
                  [arrival.message] := by simp [here]
              rw [Option.toList_some, single]
              refine ⟨fun isSecond => arrives ?_, trivial⟩
              exact trails arrival _ (some place) isArrival
                (Option.some.inj isSecond) routed
            · simp [here, same, Behind]

/-! ### Where the second record goes -/

omit [MaybeTime T] in
theorem target_of_settles {arrival : Arrival K V T}
    {router : MessageRouter K V T} {target : Option WorkerId}
    (shape : rescale.Shape job.partitioner thisWorker current)
    (away : job.partitioner arrival.message.key rescale.new ≠ thisWorker)
    (settles : rescale.Settles job.partitioner arrival.message.key
      current.distributor.router)
    (known : ∀ version, arrival.version = some version →
      version ≤ current.distributor.router.version)
    (routed : Routed job.partitioner thisWorker current.distributor.remotes
      arrival current.distributor.router router target) :
    target = some (job.partitioner arrival.message.key rescale.new) := by
  cases shape.course routed with
  | ahead versionEquation newer =>
      exact absurd newer (Nat.not_lt.mpr (known _ versionEquation))
  | waiting phase _ =>
      rw [phase] at settles
      exact congrArg some settles
  | listed interrogating _ oldHere newAway =>
      have built := (built_of_settles shape interrogating).mp settles
      exact absurd (built.symm.trans oldHere) newAway
  | interrogating interrogating _ _ =>
      exact congrArg some ((built_of_settles shape interrogating).mp settles)
  | uncollected collecting _ _ listed =>
      rw [collecting] at settles
      exact absurd (.inl listed) settles
  | buffered collecting _ _ _ isCollecting =>
      rw [collecting] at settles
      rw [CollectRouter.isCollecting_iff, CollectRouter.currentKey,
        Option.map_eq_some_iff] at isCollecting
      exact absurd (.inr isCollecting) settles
  | collected | finishedAway | upgraded => rfl
  | collectOwned _ _ newHere _ | collectOld _ _ newHere _
  | finishedOwned _ _ newHere _ | finishedOld _ _ newHere _ _ _ =>
      exact absurd newHere away

omit [MaybeTime T] in
/-- A record of the key under collection is held back behind those of the key
which are. -/
theorem target_of_held {arrival : Arrival K V T}
    {router : MessageRouter K V T} {target : Option WorkerId}
    (tidy : rescale.Tidy job.partitioner thisWorker current.distributor.router)
    (shape : rescale.Shape job.partitioner thisWorker current)
    (isHeld : first ∈ current.distributor.router.buffered)
    (sameKey : arrival.message.key = first.key)
    (known : ∀ version, arrival.version = some version →
      version ≤ rescale.version)
    (routed : Routed job.partitioner thisWorker current.distributor.remotes
      arrival current.distributor.router router target) : target = none := by
  have away := tidy.away first isHeld
  have isCurrent := tidy.bundled first isHeld
  rw [← sameKey] at away isCurrent
  cases shape.course routed with
  | ahead versionEquation newer =>
      cases isRouter : current.distributor.router with
      | collect router =>
          have isVersion : router.version = rescale.version :=
            congrArg Handover.version (shape.collecting_handover isRouter).1
          rw [isRouter, MessageRouter.version, isVersion] at newer
          exact absurd newer (Nat.not_lt.mpr (known _ versionEquation))
      | normal | interrogate | finished =>
          simp [isRouter, MessageRouter.buffered] at isHeld
  | waiting phase _ | upgraded phase _ =>
      simp [phase, MessageRouter.buffered] at isHeld
  | listed interrogating _ _ _ | interrogating interrogating _ _ =>
      simp [interrogating, MessageRouter.buffered] at isHeld
  | uncollected collecting _ _ listed =>
      rw [collecting] at isCurrent
      exact absurd listed (tidy.unlisted _ collecting _ isCurrent)
  | buffered => rfl
  | collected collecting _ _ _ idle =>
      rw [collecting] at isCurrent
      rw [CollectRouter.isCollecting_iff.mpr isCurrent] at idle
      cases idle
  | collectOwned _ _ newHere _ | collectOld _ _ newHere _ =>
      exact absurd newHere away
  | finishedAway finished _ _ | finishedOwned finished _ _ _
  | finishedOld finished _ _ _ _ _ =>
      simp [finished, MessageRouter.buffered] at isHeld

end

section

variable [DecidableEq K] [MaybeTime T] {job : Job K V T VO S L}
  {rescale : Rescale} {system : System K V T VO S L} {event : Event K V T}
  {worker : Worker K V T VO S L}
  {outgoing : List (WorkerId × NetworkMessage K V T)}
  {first second : DataMessage K V T}

omit [DecidableEq K] [MaybeTime T] in
theorem mem_of_head? {link : List (NetworkMessage K V T)}
    {message : NetworkMessage K V T} (head : link.head? = some message) :
    ∃ rest, link = message :: rest := by
  cases link with
  | nil => cases head
  | cons found rest => exact ⟨rest, congrArg (· :: rest) (Option.some.inj head)⟩

/-- The second record comes to a worker which has passed the first. -/
theorem Trailing.came
    (trailing : rescale.Trailing job.partitioner first second system)
    (paced : rescale.Paced job.partitioner first second system event)
    (step : rescale.Step job system event worker outgoing)
    {arrival : Arrival K V T} (arrives : system.arrival event = some arrival)
    (isSecond : arrival.message = second) :
    (system.workers event.worker).Passed first ∧
      ∀ version, arrival.version = some version →
        ∃ source, rescale.Addressed job.partitioner first.key source
          event.worker version := by
  rcases arrivalOf_cases arrives with ⟨version, incoming, -, isVersion⟩ |
    ⟨-, received, noVersion⟩
  · obtain ⟨other, isHead⟩ := step.head _ incoming
    have lane := trailing.lanes arrival.sender event.worker other
    obtain ⟨rest, queued⟩ := mem_of_head? isHead
    rw [queued, isSecond] at lane
    refine ⟨lane.behind.1 rfl, fun bears isBears => ⟨arrival.sender, ?_⟩⟩
    obtain rfl := Option.some.inj (isVersion.symm.trans isBears)
    exact lane.addressed version (.head _)
  · refine ⟨(trailing.workers event.worker step.participant).entered ?_, ?_⟩
    · refine paced.enters ?_
      rw [received, isSecond]
      exact .head _
    · simp [noVersion]

/-- The second record goes where the first has gone. -/
theorem Trailing.trails (selects : Selects job.partitioner)
    (base : rescale.base ≤ rescale.version) (sameKey : second.key = first.key)
    (trailing : rescale.Trailing job.partitioner first second system)
    (unhanded : ¬rescale.Handed system first)
    (paced : rescale.Paced job.partitioner first second system event)
    (step : rescale.Step job system event worker outgoing)
    {arrival : Arrival K V T} {router : MessageRouter K V T}
    {target : Option WorkerId} (arrives : system.arrival event = some arrival)
    (isSecond : arrival.message = second)
    (routed : Routed job.partitioner event.worker
      (system.workers event.worker).distributor.remotes arrival
      (system.workers event.worker).distributor.router router target) :
    (system.workers event.worker).Trails first target := by
  have orderly := trailing.workers event.worker step.participant
  obtain ⟨passed, addressed⟩ := trailing.came paced step arrives isSecond
  have isKey : arrival.message.key = first.key := by rw [isSecond, sameKey]
  by_cases strays : ∃ addressed ∈ dispatched (system.workers event.worker).sent,
      addressed.2 = first ∧ addressed.1 ≠ job.partitioner first.key rescale.new
  · obtain ⟨⟨place, record⟩, isSent, rfl, follows⟩ :=
      paced.keepsPace unhanded arrival arrives isSecond strays
    rw [routeOf, routed.routeMessage] at follows
    cases target with
    | none => cases follows
    | some target =>
        obtain ⟨-, rfl⟩ := Prod.mk.inj (Option.some.inj follows)
        exact isSent
  · rcases passed with ⟨place, isSent⟩ | isHeld
    · have owner : place = job.partitioner first.key rescale.new :=
        not_not.mp fun other => strays ⟨_, isSent, rfl, other⟩
      subst owner
      have away := orderly.elsewhere _ isSent
      have settles := orderly.settles isSent
      rw [← isKey] at away settles addressed isSent
      rw [target_of_settles step.before away settles ?_ routed]
      · exact isSent
      · intro version isVersion
        obtain ⟨source, isAddressed⟩ := addressed version isVersion
        exact not_ahead selects base away step.before settles isAddressed
    · have known : ∀ version, arrival.version = some version →
          version ≤ rescale.version := by
        intro version isVersion
        obtain ⟨source, isAddressed⟩ := addressed version isVersion
        exact isAddressed.version_le base
      rw [target_of_held orderly.tidy step.before isHeld isKey known routed]
      exact isHeld

theorem Step.trailing (selects : Selects job.partitioner)
    (base : rescale.base ≤ rescale.version) (sameKey : second.key = first.key)
    (trailing : rescale.Trailing job.partitioner first second system)
    (unhanded : ¬rescale.Handed system first)
    (paced : rescale.Paced job.partitioner first second system event)
    (step : rescale.Step job system event worker outgoing)
    (still : ¬worker.Handed first) :
    rescale.Trailing job.partitioner first second
      (system.moved event.worker (system.incoming event) worker outgoing) := by
  have orderly := trailing.workers event.worker step.participant
  have passage := passage_of_move orderly.tidy step.before step.move
  have sent := step.move.sent
  have passed : (system.workers event.worker).Passed first →
      worker.Passed first := passage.passed sent
  have trails : ∀ arrival router target, system.arrival event = some arrival →
      arrival.message = second →
      Routed job.partitioner event.worker
        (system.workers event.worker).distributor.remotes arrival
        (system.workers event.worker).distributor.router router target →
      (system.workers event.worker).Trails first target :=
    fun _ _ _ arrives isSecond routed =>
      trailing.trails selects base sameKey unhanded paced step arrives isSecond
        routed
  refine ⟨fun other member => ?_, ?_⟩
  · rw [System.moved_worker]
    split
    next same =>
      subst same
      refine passage.orderly orderly sent step.move.taken trails
        (step.tidy orderly.tidy) (fun isSent => ?_) still
      rcases (sent_append sent).mp isSent with before | now
      · exact settles_of_move orderly.tidy step.before
          (orderly.settles before) step.move
      · obtain ⟨version, member⟩ := mem_dispatched.mp now
        exact settles_of_sent orderly.tidy step.before step.move member rfl
    next => exact trailing.workers other member
  · refine System.moved_pairwise
      (rescale.Lane job.partitioner first second) trailing.lanes step.head
      ?_ ?_ ?_
    · intro target other lane
      refine ⟨?_, fun inside isSent => ?_, fun version member => ?_⟩
      · refine behind_append.mpr ⟨lane.behind,
          passage.behind sameKey orderly trails fun isSent => ?_⟩
        rcases lane.arrives step.participant isSent with queued | before
        · exact .inr (List.mem_filterMap.mp queued)
        · exact .inl before
      · rw [List.filterMap_append, List.mem_append]
        rcases (sent_append sent).mp isSent with before | now
        · exact (lane.arrives inside before).imp .inl id
        · obtain ⟨version, member⟩ := mem_dispatched.mp now
          exact .inl (.inr (List.mem_filterMap.mpr
            ⟨_, Links.mem_addressedTo.mpr member, rfl⟩))
      · rcases List.mem_append.mp member with before | now
        · exact lane.addressed version before
        · rw [← sameKey]
          exact addressed_of_move orderly.tidy step.before step.move
            (Links.mem_addressedTo.mp now)
    · intro source other _ lane
      exact ⟨lane.behind.mono passed, fun inside isSent =>
        (lane.arrives inside isSent).imp id passed, lane.addressed⟩
    · intro source message rest other incoming lane
      have arrived : message.record? = some first → worker.Passed first := by
        intro carries
        obtain ⟨arrival, arrives, rfl⟩ := passage.arriving incoming carries
        exact (passage.arrived sent arrives).resolve_right still
      refine ⟨?_, fun inside isSent => ?_, fun version member =>
        lane.addressed version (.tail _ member)⟩
      · refine Behind.mono lane.behind.2 ?_
        rintro (before | now)
        · exact passed before
        · exact arrived now
      · rcases lane.arrives inside isSent with queued | before
        · rw [List.mem_filterMap] at queued
          obtain ⟨found, member, carries⟩ := queued
          rcases List.mem_cons.mp member with rfl | later
          · exact .inr (arrived carries)
          · exact .inl (List.mem_filterMap.mpr ⟨found, later, carries⟩)
        · exact .inr (passed before)

omit [DecidableEq K] [MaybeTime T] in
theorem handed_moved {output : List (Message K V T)}
    (hands : worker.handed =
      (system.workers event.worker).handed ++ output)
    (handed : rescale.Handed system first) :
    rescale.Handed (system.moved event.worker (system.incoming event) worker
      outgoing) first := by
  obtain ⟨place, member, isHanded⟩ := handed
  refine ⟨place, member, ?_⟩
  rw [System.moved_worker]
  split
  next same =>
    subst same
    rw [Worker.Handed, hands, List.filterMap_append]
    exact List.mem_append_left _ isHanded
  next => exact isHanded

omit [DecidableEq K] [MaybeTime T] in
theorem begin_histories {settled : System K V T VO S L} {place : WorkerId}
    (member : place ∈ rescale.participants) :
    ((rescale.begin job settled).workers place).taken = [] ∧
      ((rescale.begin job settled).workers place).handed = [] := by
  by_cases old : place ∈ rescale.old
  · simp [begin, old]
  · have new : place ∈ rescale.new :=
      (mem_participants.mp member).resolve_left old
    simp [begin, old, new, Worker.build]

omit [DecidableEq K] [MaybeTime T] in
theorem begin_trailing {settled : System K V T VO S L}
    (running : Running rescale.old rescale.base settled)
    (absent : ∀ source target, ∀ message ∈ settled.links source target,
      message.record? ≠ some second) :
    rescale.Trailing job.partitioner first second
      (rescale.begin job settled) where
  workers worker member := by
    have router : ((rescale.begin job settled).workers
        worker).distributor.router = .normal (rescale.initialRouter worker) :=
      begin_router running member
    obtain ⟨taken, handed⟩ : ((rescale.begin job settled).workers
        worker).taken = [] ∧ _ := begin_histories member
    have unsent (target : WorkerId) :
        ¬((rescale.begin job settled).workers worker).Sent first target := by
      simp [Worker.Sent, begin_sent member, dispatched]
    exact
      { tidy := by
          rw [router]
          exact ⟨fun _ => False.elim, nofun, nofun, nofun⟩
        entered := by simp [taken]
        elsewhere := fun target isSent => absurd isSent (unsent target)
        settles := fun isSent => absurd isSent (unsent _)
        behind := by
          rw [router]
          trivial
        unhanded := by simp [Worker.Handed, handed] }
  lanes source target different := by
    refine ⟨behind_without (absent source target), fun inside isSent => ?_,
      fun version member => absurd rfl (absent source target _ member)⟩
    rw [Worker.Sent, begin_sent inside] at isSent
    cases isSent

/-- Two records of one key which enter at one worker are handed on in that
order, as long as no worker which has sent the first to another one than the new
owner lets the second take another way. -/
theorem second_not_before_first {settled : System K V T VO S L}
    (selects : Selects job.partitioner)
    (base : rescale.base ≤ rescale.version)
    (running : Running rescale.old rescale.base settled)
    (first second : DataMessage K V T) (sameKey : second.key = first.key)
    (absent : ∀ source target, ∀ message ∈ settled.links source target,
      message.record? ≠ some second)
    (run : Reaches (fun state event => state.step job event)
      (rescale.Paced job.partitioner first second)
      (rescale.begin job settled) system)
    (handed : rescale.Handed system second) : rescale.Handed system first := by
  have kept : rescale.Handed system first ∨
      rescale.Trailing job.partitioner first second system := by
    refine (run_invariant (fun state => rescale.Handed state first ∨
        rescale.Trailing job.partitioner first second state)
      (begin_shaped running) (.inr (begin_trailing running absent))
      (fun _ _ paced => paced.permitted) ?_ run).2
    intro state event worker outgoing _ holds paced step
    obtain ⟨output, hands, -⟩ := step.move.handed
    rcases holds with before | trailing
    · exact .inl (handed_moved hands before)
    · by_cases unhanded : rescale.Handed state first
      · exact .inl (handed_moved hands unhanded)
      · by_cases now : worker.Handed first
        · refine .inl ⟨event.worker, step.participant, ?_⟩
          rwa [System.moved_worker, if_pos rfl]
        · exact .inr (step.trailing selects base sameKey trailing unhanded paced
            now)
  rcases kept with isHanded | trailing
  · exact isHanded
  · obtain ⟨place, member, isHanded⟩ := handed
    exact absurd isHanded (trailing.workers place member).unhanded

end

end Rescale

/-- Two records of key 2 enter at worker 1.  It sends the first to worker 2,
takes the rescale message and sends the second to worker 0, which takes it for
ahead; worker 2 has upgraded when the first comes. -/
def overtakingTrace : List (Event Nat Unit Nat) :=
  [.receiveLocal 1 (.data ⟨2, (), 0⟩),
    .receiveLocal 1 (.rescale departure.message), .operator 1, .sink 1,
    .lifecycle 1,
    .receiveLocal 1 (.data ⟨2, (), 1⟩), .receiveRemote 0 1,
    .receiveLocal 2 (.rescale departure.message), .operator 2, .sink 2,
    .lifecycle 2, .lifecycle 2,
    .receiveRemote 2 1, .receiveRemote 0 2, .receiveRemote 0 2]

@[irreducible] def overtakingState : System Nat Unit Nat Nat Nat Unit :=
  replay (fun state event => System.step countJob state event)
    (departure.begin countJob (System.initial countJob departure.old))
    overtakingTrace

theorem departure_overtakes :
    Reaches (fun state event => System.step countJob state event)
        departure.Permits
        (departure.begin countJob (System.initial countJob departure.old))
        overtakingState ∧
      (overtakingState.workers 1).taken.filterMap Message.data? =
        [⟨2, (), 0⟩, ⟨2, (), 1⟩] ∧
      (overtakingState.workers 0).handed.filterMap Message.data? =
        [⟨2, (), 1⟩, ⟨2, (), 0⟩] := by
  refine ⟨?_, by decide +kernel, by decide +kernel⟩
  unfold overtakingState
  exact Follows.reaches overtakingTrace .refl (by decide +kernel)

/-- Two records of key 2 enter at worker 0 and make the way to the old owner
and back. -/
def bounceTrace : List (Event Nat Unit Nat) :=
  [.receiveLocal 0 (.rescale departure.message), .operator 0, .sink 0,
    .lifecycle 0,
    .receiveLocal 2 (.rescale departure.message), .operator 2, .sink 2,
    .lifecycle 2, .lifecycle 2,
    .receiveLocal 0 (.data ⟨2, (), 0⟩), .receiveLocal 0 (.data ⟨2, (), 1⟩),
    .receiveRemote 2 0, .receiveRemote 2 0,
    .receiveRemote 0 2, .receiveRemote 0 2, .receiveRemote 0 2]

@[irreducible] def bounceState : System Nat Unit Nat Nat Nat Unit :=
  replay (fun state event => System.step countJob state event)
    (departure.begin countJob (System.initial countJob departure.old))
    bounceTrace

theorem bounce_in_order :
    departure.Handed bounceState ⟨2, (), 1⟩ ∧
      departure.Handed bounceState ⟨2, (), 0⟩ := by
  have run : Reaches (fun state event => System.step countJob state event)
      (departure.Paced countJob.partitioner ⟨2, (), 0⟩ ⟨2, (), 1⟩)
      (departure.begin countJob (System.initial countJob departure.old))
      bounceState := by
    unfold bounceState
    exact Follows.reaches bounceTrace .refl (by decide +kernel)
  have handed : departure.Handed bounceState ⟨2, (), 1⟩ := by
    decide +kernel
  exact ⟨handed, Rescale.second_not_before_first
    (fun key _ nonempty => indexSelect_mem key nonempty) (by decide)
    (Running.initial countJob departure.old) ⟨2, (), 0⟩ ⟨2, (), 1⟩ rfl nofun run
    handed⟩

end Malstrom.Keyed
