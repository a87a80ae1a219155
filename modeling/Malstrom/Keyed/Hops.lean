import Malstrom.Data.Weight
import Malstrom.Keyed.Alignment
import Malstrom.Keyed.Ownership

namespace Malstrom.Keyed

open Data Operators

variable {K V T VO S L : Type}

/-! How many channels a record crosses while a rescale is under way.  Every
record on a link has a fare, which pays for the channels it may still cross. -/

def MessageRouter.buffered : MessageRouter K V T → List (DataMessage K V T)
  | .collect router => router.buffered
  | .normal _ | .interrogate _ | .finished _ => []

def MessageRouter.currentKey : MessageRouter K V T → Option K
  | .collect router => router.currentKey
  | .normal _ | .interrogate _ | .finished _ => none

/-- All records which are held back are of the key under collection. -/
def MessageRouter.Bundled (router : MessageRouter K V T) : Prop :=
  ∀ message ∈ router.buffered, router.currentKey = some message.key

section

variable [DecidableEq K] [DecidableEq V] [DecidableEq T]

def Worker.entries (current : Worker K V T VO S L)
    (record : DataMessage K V T) : Nat :=
  (current.taken.filterMap Message.data?).count record

def Worker.crossings (current : Worker K V T VO S L)
    (record : DataMessage K V T) : Nat :=
  (current.sent.filterMap fun addressed => addressed.2.record?).count record

end

namespace Rescale

/-- The channels a record may still cross once it is on the way to a worker. -/
def fare (rescale : Rescale) (partitioner : WorkerPartitioner K) (key : K)
    (source target : WorkerId) (version : Version) : Nat :=
  if target = partitioner key rescale.new then
    if target ∉ rescale.old ∨
        source = partitioner key rescale.old ∧ version = rescale.version then 0
    else 2
  else if target = partitioner key rescale.old then 1
  else 3

/-- The channels a record may still cross which comes to a worker. -/
def arrivalFare (rescale : Rescale) (partitioner : WorkerPartitioner K)
    (worker : WorkerId) (arrival : Arrival K V T) : Nat :=
  match arrival.version with
  | some version => rescale.fare partitioner arrival.message.key arrival.sender
      worker version
  | none => 3

/-- The channels a record may still cross which a worker holds back. -/
def heldFare (rescale : Rescale) (partitioner : WorkerPartitioner K) (key : K)
    (worker : WorkerId) : Nat :=
  if worker = partitioner key rescale.old then 1 else 3

/-- Workers which join the rescale look for a key where they will in the end. -/
def Joins (rescale : Rescale) (partitioner : WorkerPartitioner K) (key : K) :
    Prop :=
  ∀ worker ∈ rescale.new, worker ∉ rescale.old →
    partitioner key rescale.participants = partitioner key rescale.new

/-- The old workers run at a version before that of the rescale. -/
def Later (rescale : Rescale) : Prop :=
  rescale.old.items ≠ [] → rescale.base < rescale.version

section

variable [DecidableEq K] {rescale : Rescale}
  {partitioner : WorkerPartitioner K} {worker target : WorkerId}
  {current : Worker K V T VO S L} {arrival : Arrival K V T}
  {router : MessageRouter K V T} {key : K}

/-- Where a worker passes a record on to: to the new owner, with the version of
the rescale, or to the owner it was built to send to, with the version it was
built with or back from the new owner. -/
theorem Course.onward
    (course : rescale.Course partitioner worker current arrival router
      (some target)) (other : target ≠ worker) :
    (target = partitioner arrival.message.key rescale.new ∧
        current.distributor.router.version = rescale.version) ∨
    (target = partitioner arrival.message.key (rescale.buildSet worker) ∧
        current.distributor.router.version = rescale.buildVersion worker) ∨
    target = partitioner arrival.message.key (rescale.buildSet worker) ∧
      current.distributor.router.version = rescale.version ∧
      worker = partitioner arrival.message.key rescale.new ∧
      partitioner arrival.message.key (rescale.buildSet worker) ≠
        arrival.sender := by
  cases course with
  | ahead | listed | uncollected | collectOwned | finishedOwned =>
      exact absurd rfl other
  | waiting phase _ => exact .inr (.inl ⟨rfl, by rw [phase]; rfl⟩)
  | interrogating interrogating version _ =>
      exact .inr (.inl ⟨rfl, by rw [interrogating]; exact version⟩)
  | collected collecting version _ _ _ =>
      exact .inl ⟨rfl, by rw [collecting]; exact version⟩
  | collectOld collecting version newHere notFromOld =>
      exact .inr (.inr ⟨rfl, by rw [collecting]; exact version, newHere.symm,
        notFromOld⟩)
  | finishedAway finished version _ =>
      exact .inl ⟨rfl, by rw [finished]; exact version⟩
  | finishedOld finished version newHere _ notFromOld _ =>
      exact .inr (.inr ⟨rfl, by rw [finished]; exact version, newHere.symm,
        notFromOld⟩)
  | upgraded phase _ => exact .inl ⟨rfl, by rw [phase]; rfl⟩

omit [DecidableEq K] in
theorem buildSet_of_old (old : worker ∈ rescale.old) :
    rescale.buildSet worker = rescale.old ∧
      rescale.buildVersion worker = rescale.base := by
  simp [buildSet, buildVersion, old]

omit [DecidableEq K] in
/-- So it is where workers only join or only leave, at the end. -/
theorem joins_of_range (before after : Nat)
    (old : rescale.old.items = List.range before)
    (new : rescale.new.items = List.range after) :
    rescale.Joins partitioner key := by
  intro worker isNew joining
  rw [IndexSet.mem_def, new, List.mem_range] at isNew
  rw [IndexSet.mem_def, old, List.mem_range] at joining
  obtain ⟨added, rfl⟩ := Nat.exists_eq_add_of_le
    ((Nat.not_lt.mp joining).trans isNew.le)
  have present : ∀ item ∈ List.range before, item ∈ rescale.old := by
    simp [IndexSet.mem_def, old]
  have items : rescale.participants.items = rescale.new.items := by
    have nodup : (rescale.old.items ++
        (List.range added).map (before + ·)).Nodup := by
      rw [old, ← List.range_add]
      exact List.nodup_range
    rw [participants, IndexSet.union, new, List.range_add,
      IndexSet.insertAll_append, IndexSet.insertAll_of_subset present,
      IndexSet.items_insertAll nodup, old]
  rw [IndexSet.ext_items items]

omit [DecidableEq K] in
theorem Joins.owner (joins : rescale.Joins partitioner key)
    (member : worker ∈ rescale.participants) (joining : worker ∉ rescale.old) :
    partitioner key (rescale.buildSet worker) = partitioner key rescale.new := by
  have new : worker ∈ rescale.new :=
    (mem_participants.mp member).resolve_left joining
  rw [buildSet, if_neg joining]
  exact joins worker new joining

omit [DecidableEq K] in
theorem fare_le (key : K) (source : WorkerId) (version : Version)
    (placed : target = partitioner key rescale.new ∨
      target = partitioner key rescale.old) :
    rescale.fare partitioner key source target version ≤ 2 := by
  unfold fare
  split_ifs
  · exact Nat.zero_le 2
  · exact le_rfl
  · exact Nat.le_succ 1
  · rcases placed with isOwner | isFormer
    · contradiction
    · contradiction

omit [DecidableEq K] in
theorem fare_le_three (key : K) (source : WorkerId) (version : Version) :
    rescale.fare partitioner key source target version ≤ 3 := by
  unfold fare
  split_ifs <;> omega

omit [DecidableEq K] in
theorem fare_handover (key : K) (worker : WorkerId) :
    rescale.fare partitioner key worker (partitioner key rescale.new)
        rescale.version + 1 ≤ rescale.heldFare partitioner key worker := by
  unfold fare heldFare
  split_ifs <;> simp_all

omit [DecidableEq K] in
/-- A worker which joins is not the former owner of a key which an old worker
gets. -/
theorem fare_joining (selects : Selects partitioner) (key : K)
    (version : Version) (joining : worker ∉ rescale.old) :
    rescale.fare partitioner key worker (partitioner key rescale.new) version +
      1 ≤ rescale.heldFare partitioner key worker := by
  by_cases owned : partitioner key rescale.new ∈ rescale.old
  · have former : worker ≠ partitioner key rescale.old := by
      rintro rfl
      exact joining (selects key rescale.old (List.ne_nil_of_mem owned))
    rw [heldFare, if_neg former]
    exact Nat.succ_le_succ (fare_le key worker version (.inl rfl))
  · rw [fare, if_pos rfl, if_pos (.inl owned), heldFare]
    split
    · exact le_rfl
    · exact Nat.le_add_left 1 2

omit [DecidableEq K] in
theorem heldFare_le_arrivalFare
    (away : worker ≠ partitioner arrival.message.key rescale.new) :
    rescale.heldFare partitioner arrival.message.key worker ≤
      rescale.arrivalFare partitioner worker arrival := by
  cases versionEquation : arrival.version with
  | some version =>
      simp only [arrivalFare, versionEquation, fare, if_neg away, heldFare,
        le_refl]
  | none =>
      simp only [arrivalFare, versionEquation, heldFare]
      split
      · exact Nat.le_add_left 1 2
      · exact le_rfl

omit [DecidableEq K] in
/-- A record which the former owner has not sent with the version of the rescale
may leave the owner once more. -/
theorem arrivalFare_owner (old : worker ∈ rescale.old)
    (owner : worker = partitioner arrival.message.key rescale.new)
    (unsent : ∀ version, arrival.version = some version →
      arrival.sender = partitioner arrival.message.key rescale.old →
      version ≠ rescale.version) :
    2 ≤ rescale.arrivalFare partitioner worker arrival := by
  unfold arrivalFare
  split
  next version versionEquation =>
    rw [fare, if_pos owner, if_neg]
    rintro (joining | ⟨isFormer, isVersion⟩)
    · exact joining old
    · exact unsent version versionEquation isFormer isVersion
  next => exact Nat.le_succ 2

/-- The fare of a record pays for the channel it is sent on, and for those it
may cross then. -/
theorem Course.fare (selects : Selects partitioner) (later : rescale.Later)
    (joins : rescale.Joins partitioner arrival.message.key)
    (member : worker ∈ rescale.participants)
    (course : rescale.Course partitioner worker current arrival router
      (some target)) (other : target ≠ worker)
    (known : ∀ version, arrival.version = some version →
      version ≤ current.distributor.router.version) :
    rescale.fare partitioner arrival.message.key worker target
        current.distributor.router.version + 1 ≤
      rescale.arrivalFare partitioner worker arrival := by
  by_cases old : worker ∈ rescale.old
  · obtain ⟨isBuildSet, isBuildVersion⟩ := buildSet_of_old old
    have former := course.onward other
    rw [isBuildSet, isBuildVersion] at former
    rcases former with ⟨rfl, isVersion⟩ | ⟨rfl, isVersion⟩ |
      ⟨rfl, -, owner, notFormer⟩
    · rw [isVersion]
      exact (fare_handover arrival.message.key worker).trans
        (heldFare_le_arrivalFare (Ne.symm other))
    · by_cases owner : worker = partitioner arrival.message.key rescale.new
      · have before : rescale.base < rescale.version :=
          later (List.ne_nil_of_mem old)
        rw [Rescale.fare, if_neg (owner ▸ other), if_pos rfl]
        refine arrivalFare_owner old owner ?_
        intro version versionEquation _ isRescale
        have atMost := known version versionEquation
        rw [isVersion, isRescale] at atMost
        exact absurd atMost (Nat.not_le.mpr before)
      · refine le_trans ?_ (heldFare_le_arrivalFare owner)
        rw [heldFare, if_neg (Ne.symm other)]
        exact Nat.succ_le_succ
          (fare_le arrival.message.key worker _ (.inr rfl))
    · rw [Rescale.fare, if_neg (owner ▸ other), if_pos rfl]
      exact arrivalFare_owner old owner fun _ _ isFormer =>
        absurd isFormer.symm notFormer
  · have isOwner : target = partitioner arrival.message.key rescale.new := by
      have owner := joins.owner member old
      rcases course.onward other with ⟨isOwner, -⟩ | ⟨isTarget, -⟩ |
        ⟨isTarget, -⟩
      · exact isOwner
      · exact isTarget.trans owner
      · exact isTarget.trans owner
    subst isOwner
    exact (fare_joining selects arrival.message.key _ old).trans
      (heldFare_le_arrivalFare (Ne.symm other))

end

/-! ### One step -/

section

variable [DecidableEq K] [DecidableEq V] [DecidableEq T] {rescale : Rescale}
  {partitioner : WorkerPartitioner K} {record : DataMessage K V T}
  {worker : WorkerId}

/-- The fare of a message which carries the record. -/
def toll (rescale : Rescale) (partitioner : WorkerPartitioner K)
    (record : DataMessage K V T) (source target : WorkerId) :
    NetworkMessage K V T → Nat
  | .data message =>
      if message.content = record then
        rescale.fare partitioner record.key source target message.version
      else 0
  | .epoch _ | .barrierMarker | .suspendMarker | .acquire _ | .upgrade _
  | .ackUpgrade _ => 0

def expense (rescale : Rescale) (partitioner : WorkerPartitioner K)
    (record : DataMessage K V T) (worker : WorkerId)
    (outgoing : List (WorkerId × NetworkMessage K V T)) : Nat :=
  (outgoing.filterMap fun addressed => addressed.2.record?).count record +
    Links.load (rescale.toll partitioner record) worker outgoing

def held (rescale : Rescale) (partitioner : WorkerPartitioner K)
    (record : DataMessage K V T) (worker : WorkerId)
    (router : MessageRouter K V T) : Nat :=
  router.buffered.count record * rescale.heldFare partitioner record.key worker

/-- What a step of a worker may spend: the fare of the record it takes off a
link, and three channels for one of its upstream. -/
def income (rescale : Rescale) (partitioner : WorkerPartitioner K)
    (record : DataMessage K V T) (worker : WorkerId)
    (incoming : Option (WorkerId × NetworkMessage K V T))
    (received : List (Message K V T)) : Nat :=
  (incoming.elim 0 fun arrived =>
    rescale.toll partitioner record arrived.1 worker arrived.2) +
    3 * (received.filterMap Message.data?).count record

omit [DecidableEq T] [DecidableEq V] [DecidableEq K] in
theorem record?_of_isQuiet {message : NetworkMessage K V T}
    (quiet : message.isQuiet = true) : message.record? = none := by
  cases message with
  | data => simp [NetworkMessage.isQuiet] at quiet
  | epoch | barrierMarker | suspendMarker | acquire | upgrade | ackUpgrade =>
      rfl

theorem toll_of_record? {message : NetworkMessage K V T}
    (silent : message.record? = none) (source target : WorkerId) :
    rescale.toll partitioner record source target message = 0 := by
  cases message with
  | data => simp [NetworkMessage.record?, NetworkMessage.data?] at silent
  | epoch | barrierMarker | suspendMarker | acquire | upgrade | ackUpgrade =>
      rfl

theorem expense_silent {outgoing : List (WorkerId × NetworkMessage K V T)}
    (silent : ∀ addressed ∈ outgoing, addressed.2.record? = none) :
    rescale.expense partitioner record worker outgoing = 0 := by
  rw [expense, List.filterMap_eq_nil_iff.mpr silent, List.count_nil,
    Links.load_eq_zero fun addressed member =>
      toll_of_record? (silent addressed member) _ _]

theorem expense_append (first second : List (WorkerId × NetworkMessage K V T)) :
    rescale.expense partitioner record worker (first ++ second) =
      rescale.expense partitioner record worker first +
        rescale.expense partitioner record worker second := by
  simp only [expense, List.filterMap_append, List.count_append,
    Links.load_append]
  omega

theorem expense_cons (addressed : WorkerId × NetworkMessage K V T)
    (rest : List (WorkerId × NetworkMessage K V T)) :
    rescale.expense partitioner record worker (addressed :: rest) =
      rescale.expense partitioner record worker [addressed] +
        rescale.expense partitioner record worker rest :=
  expense_append [addressed] rest

theorem expense_data (target : WorkerId) (message : DataMessage K V T)
    (version : Version) :
    rescale.expense partitioner record worker
        [(target, .data ⟨message, version⟩)] =
      if message = record then
        rescale.fare partitioner record.key worker target version + 1
      else 0 := by
  by_cases same : message = record
  · subst same
    simp [expense, toll, NetworkMessage.record?, NetworkMessage.data?,
      Nat.add_comm]
  · simp [expense, toll, NetworkMessage.record?, NetworkMessage.data?, same]

theorem expense_flush (messages : List (DataMessage K V T)) (target : WorkerId)
    (version : Version) :
    rescale.expense partitioner record worker
        (messages.map fun message => (target, .data ⟨message, version⟩)) =
      messages.count record *
        (rescale.fare partitioner record.key worker target version + 1) := by
  induction messages with
  | nil => simp [expense]
  | cons message rest ih =>
      rw [List.map_cons, expense_cons, ih, expense_data, List.count_cons]
      by_cases same : message = record
      · subst same
        simp only [if_true, beq_self_eq_true]
        rw [Nat.add_mul, Nat.one_mul, Nat.add_comm]
      · simp [same]

theorem income_arrival {incoming : Option (WorkerId × NetworkMessage K V T)}
    {received : List (Message K V T)} {arrival : Arrival K V T}
    (arrives : arrivalOf worker incoming received = some arrival) :
    rescale.income partitioner record worker incoming received =
      if arrival.message = record then
        rescale.arrivalFare partitioner worker arrival
      else 0 := by
  unfold arrivalOf at arrives
  split at arrives
  next remote message =>
    obtain rfl := Option.some.inj arrives
    simp only [income, Option.elim_some, toll, List.filterMap_nil,
      List.count_nil, Nat.mul_zero, Nat.add_zero, arrivalFare]
    by_cases same : message.content = record
    · subst same
      rfl
    · rw [if_neg same, if_neg same]
  next message =>
    obtain rfl := Option.some.inj arrives
    by_cases same : message = record
    · subst same
      simp [income, Message.data?, arrivalFare]
    · simp [income, Message.data?, same]
  next => cases arrives

variable (record worker) in
/-- What a collecting router sends has been paid for while it was held back. -/
theorem Released.expense {remotes : Remotes T} {clones : Nat}
    {router released : CollectRouter K V T}
    {network : List (WorkerId × NetworkMessage K V T)}
    (release : Released partitioner remotes clones router released network)
    (bundled : ∀ message ∈ router.buffered,
      router.currentKey = some message.key)
    (version : router.version = rescale.version)
    (new : router.newWorkerSet = rescale.new) :
    rescale.expense partitioner record worker network +
        released.buffered.count record *
          rescale.heldFare partitioner record.key worker ≤
      router.buffered.count record *
        rescale.heldFare partitioner record.key worker := by
  cases release with
  | idle _ => simp [expense_silent]
  | @released collect _ isCurrent _ =>
      have acquires : rescale.expense partitioner record worker
          [(partitioner collect.key router.newWorkerSet,
            .acquire ⟨collect.key, collect.collection⟩)] = 0 :=
        expense_silent (by simp [NetworkMessage.record?, NetworkMessage.data?])
      rw [expense_cons, acquires, expense_flush, List.count_nil, Nat.zero_mul,
        Nat.zero_add, Nat.add_zero, version, new]
      by_cases isHeld : record ∈ router.buffered
      · have key : collect.key = record.key := by
          simpa [CollectRouter.currentKey, isCurrent] using
            bundled record isHeld
        rw [key]
        exact Nat.mul_le_mul_left _ (fare_handover record.key worker)
      · simp [List.count_eq_zero_of_not_mem isHeld]

end

section

variable [DecidableEq K] [DecidableEq V] [DecidableEq T] [MaybeTime T]
  {job : Job K V T VO S L} {rescale : Rescale}
  {record : DataMessage K V T} {thisWorker : WorkerId}
  {current next : Worker K V T VO S L}
  {incoming : Option (WorkerId × NetworkMessage K V T)}
  {received : List (Message K V T)} {operated : Option (Message K V T)}
  {outgoing : List (WorkerId × NetworkMessage K V T)}

omit [DecidableEq V] [DecidableEq T] [MaybeTime T] in
theorem buffered_of_routed {remotes : Remotes T} {arrival : Arrival K V T}
    {router router' : MessageRouter K V T} {target : WorkerId}
    (routed : Routed job.partitioner thisWorker remotes arrival router router'
      (some target)) :
    router'.buffered = router.buffered ∧
      router'.currentKey = router.currentKey := by
  cases routed with
  | ahead _ _ => exact ⟨rfl, rfl⟩
  | ruled _ rule => cases rule <;> exact ⟨rfl, rfl⟩

omit [DecidableEq V] [DecidableEq T] [MaybeTime T] in
theorem version_of_routed {remotes : Remotes T} {arrival : Arrival K V T}
    {router router' : MessageRouter K V T} {target : Option WorkerId}
    (routed : Routed job.partitioner thisWorker remotes arrival router router'
      target) : router'.version = router.version := by
  cases routed with
  | ahead _ _ => rfl
  | ruled _ rule => exact rule.version

omit [DecidableEq V] [DecidableEq T] [MaybeTime T] in
theorem buffered_takeReport (distributor : Distributor K V T)
    (report : Report K S) :
    (distributor.takeReport report).router.buffered =
        distributor.router.buffered ∧
      (distributor.takeReport report).router.currentKey =
        distributor.router.currentKey := by
  cases isRouter : distributor.router with
  | collect router =>
      obtain ⟨collecting, isCollecting, -, isBuffered, isCurrent⟩ :=
        distributor.takeReport_collect report isRouter
      rw [isCollecting]
      exact ⟨isBuffered, isCurrent⟩
  | normal | interrogate | finished =>
      cases report <;>
        simp [Distributor.takeReport, isRouter, MessageRouter.buffered,
          MessageRouter.currentKey]

variable (record) in
/-- A step spends no more than it takes in and what it no longer holds back. -/
theorem balance_of_move (selects : Selects job.partitioner)
    (later : rescale.Later) (joins : rescale.Joins job.partitioner record.key)
    (member : thisWorker ∈ rescale.participants)
    (shape : rescale.Shape job.partitioner thisWorker current)
    (bundled : current.distributor.router.Bundled)
    (move : Move job thisWorker current incoming received operated next
      outgoing) :
    rescale.expense job.partitioner record thisWorker outgoing +
        rescale.held job.partitioner record thisWorker next.distributor.router ≤
      rescale.income job.partitioner record thisWorker incoming received +
        rescale.held job.partitioner record thisWorker
          current.distributor.router := by
  have free {next : Worker K V T VO S L}
      {outgoing : List (WorkerId × NetworkMessage K V T)}
      (silent : ∀ addressed ∈ outgoing, addressed.2.record? = none)
      (holds : next.distributor.router.buffered =
        current.distributor.router.buffered) :
      rescale.expense job.partitioner record thisWorker outgoing +
          rescale.held job.partitioner record thisWorker
            next.distributor.router ≤
        rescale.income job.partitioner record thisWorker incoming received +
          rescale.held job.partitioner record thisWorker
            current.distributor.router := by
    rw [expense_silent silent, Nat.zero_add, held, holds]
    exact Nat.le_add_left _ _
  cases move with
  | quiet sameRouter _ _ quietNetwork _ _ =>
      exact free (fun addressed sent =>
        record?_of_isQuiet (quietNetwork addressed sent))
        (congrArg MessageRouter.buffered sameRouter)
  | kept _ routed => exact free nofun (buffered_of_routed routed).1
  | @buffered _ _ arrival router arrives routed =>
      rw [expense_silent (by simp), Nat.zero_add, income_arrival arrives]
      cases shape.course routed with
      | buffered collecting _ newAway _ _ =>
          simp only [held, Worker.after, collecting, MessageRouter.buffered,
            List.count_append, List.count_singleton]
          by_cases same : arrival.message = record
          · subst same
            simp only [if_true, beq_self_eq_true, Nat.add_mul, Nat.one_mul]
            rw [Nat.add_comm]
            exact Nat.add_le_add_right
              (heldFare_le_arrivalFare (Ne.symm newAway)) _
          · simp [same]
  | @forwarded _ _ arrival router target arrives routed other _ =>
      rw [income_arrival arrives, expense_data, held, held]
      simp only [Worker.after, (buffered_of_routed routed).1]
      refine Nat.add_le_add_right ?_ _
      split
      next same =>
        subst same
        rw [version_of_routed routed]
        have course := shape.course routed
        cases routed with
        | ahead _ _ => exact absurd rfl other
        | ruled known _ => exact course.fare selects later joins member other known
      next => exact Nat.zero_le _
  | acquire => exact free nofun rfl
  | upgrade => exact free (by simp [NetworkMessage.record?, NetworkMessage.data?]) rfl
  | ackUpgrade => exact free nofun rfl
  | rescale waiting => exact free nofun (by rw [waiting]; rfl)
  | rescaleCopy => exact free nofun rfl
  | interrogated interrogating _ =>
      exact free nofun (by rw [interrogating]; rfl)
  | @collectNext router released network key rest collecting release _ =>
      rw [collecting] at bundled
      have paid := Released.expense record thisWorker release bundled
        (shape.collecting_clients collecting).1
        (shape.collecting_sets collecting).2
      simp only [held, Worker.after, collecting, MessageRouter.buffered]
      exact paid.trans (Nat.le_add_left _ _)
  | @concluded router released network collecting release _ =>
      rw [collecting] at bundled
      have paid := Released.expense record thisWorker release bundled
        (shape.collecting_clients collecting).1
        (shape.collecting_sets collecting).2
      have announces : rescale.expense job.partitioner record thisWorker
          (broadcast current.distributor.remotes (.upgrade router.version)) =
            0 :=
        expense_silent (by
          simp [broadcast, NetworkMessage.record?, NetworkMessage.data?])
      rw [expense_append, announces]
      simp only [held, Worker.after, collecting, MessageRouter.buffered,
        List.count_nil, Nat.zero_mul, Nat.add_zero]
      exact (Nat.le_of_add_right_le paid).trans (Nat.le_add_left _ _)
  | finished finished _ => exact free nofun (by rw [finished]; rfl)
  | scheduled _ => exact free nofun rfl
  | received _ _ reports =>
      exact free nofun (by rw [reports]; exact (buffered_takeReport _ _).1)
  | sink => exact free nofun rfl

end

/-! ### Runs -/

section

variable [DecidableEq K] [DecidableEq V] [DecidableEq T] [MaybeTime T]
  {job : Job K V T VO S L} {rescale : Rescale}
  {system : System K V T VO S L} {event : Event K V T}
  {worker : Worker K V T VO S L}
  {outgoing : List (WorkerId × NetworkMessage K V T)}
  {record : DataMessage K V T}

omit [DecidableEq V] [DecidableEq T] in
theorem bundled_of_move {thisWorker : WorkerId}
    {current next : Worker K V T VO S L}
    {incoming : Option (WorkerId × NetworkMessage K V T)}
    {received : List (Message K V T)} {operated : Option (Message K V T)}
    (shape : rescale.Shape job.partitioner thisWorker current)
    (bundled : current.distributor.router.Bundled)
    (move : Move job thisWorker current incoming received operated next
      outgoing) : next.distributor.router.Bundled := by
  cases move with
  | quiet sameRouter _ _ _ _ _ =>
      simpa only [Worker.after, sameRouter] using bundled
  | kept _ routed | forwarded _ routed _ _ =>
      obtain ⟨isBuffered, isCurrent⟩ := buffered_of_routed routed
      simpa only [MessageRouter.Bundled, Worker.after, isBuffered, isCurrent]
        using bundled
  | @buffered _ _ arrival _ _ routed =>
      cases shape.course routed with
      | buffered collecting _ _ _ isCollecting =>
          rw [collecting] at bundled
          intro message isHeld
          rcases List.mem_append.mp isHeld with before | last
          · exact bundled message before
          · rw [List.mem_singleton.mp last]
            exact CollectRouter.isCollecting_iff.mp isCollecting
  | acquire | upgrade | ackUpgrade | rescaleCopy | scheduled | sink =>
      exact bundled
  | rescale | interrogated | finished | concluded =>
      exact fun _ isHeld => absurd isHeld List.not_mem_nil
  | collectNext collecting release _ =>
      rw [collecting] at bundled
      cases release with
      | idle idle =>
          intro message isHeld
          have isCurrent := bundled message isHeld
          simp [MessageRouter.currentKey, CollectRouter.currentKey, idle]
            at isCurrent
      | released => exact fun _ isHeld => absurd isHeld List.not_mem_nil
  | @received _ _ _ _ _ report _ _ reports =>
      obtain ⟨isBuffered, isCurrent⟩ :=
        buffered_takeReport current.distributor report
      simpa only [MessageRouter.Bundled, reports, isBuffered, isCurrent]
        using bundled

def entries (rescale : Rescale) (system : System K V T VO S L)
    (record : DataMessage K V T) : Nat :=
  ∑ worker ∈ rescale.participants.items.toFinset,
    (system.workers worker).entries record

def crossings (rescale : Rescale) (system : System K V T VO S L)
    (record : DataMessage K V T) : Nat :=
  ∑ worker ∈ rescale.participants.items.toFinset,
    (system.workers worker).crossings record

def copies (rescale : Rescale) (system : System K V T VO S L)
    (record : DataMessage K V T) : Nat :=
  system.links.weight
    (fun _ _ message => if message.record? = some record then 1 else 0)
    rescale.participants.items.toFinset

/-- The channels which copies of the record have crossed and may still
cross. -/
def liability (rescale : Rescale) (partitioner : WorkerPartitioner K)
    (system : System K V T VO S L) (record : DataMessage K V T) : Nat :=
  ∑ worker ∈ rescale.participants.items.toFinset,
    ((system.workers worker).crossings record +
      rescale.held partitioner record worker
        (system.workers worker).distributor.router) +
    system.links.weight (rescale.toll partitioner record)
      rescale.participants.items.toFinset

omit [DecidableEq V] [DecidableEq T] in
theorem Step.sends_record
    (step : rescale.Step job system event worker outgoing)
    {addressed : WorkerId × NetworkMessage K V T}
    (member : addressed ∈ outgoing) (carries : addressed.2.record? ≠ none) :
    addressed.1 ∈ rescale.participants ∧ addressed.1 ≠ event.worker := by
  obtain ⟨target, message⟩ := addressed
  cases message with
  | data message =>
      exact step.before.clients_participate (step.sends_data member).2
  | epoch | barrierMarker | suspendMarker | acquire | upgrade | ackUpgrade =>
      exact absurd rfl carries

variable (worker outgoing) in
omit [DecidableEq K] [DecidableEq V] [DecidableEq T] [MaybeTime T] in
theorem weight_moved
    (weigh : WorkerId → WorkerId → NetworkMessage K V T → Nat)
    {places : Finset WorkerId} {thisWorker : WorkerId}
    {incoming : Option (WorkerId × NetworkMessage K V T)}
    (inside : thisWorker ∈ places)
    (head : ∀ arrived ∈ incoming, arrived.1 ∈ places ∧
      (system.links arrived.1 thisWorker).head? = some arrived.2)
    (targets : ∀ addressed ∈ outgoing,
      weigh thisWorker addressed.1 addressed.2 ≠ 0 → addressed.1 ∈ places) :
    (system.moved thisWorker incoming worker outgoing).links.weight weigh
          places +
        (incoming.elim 0 fun arrived => weigh arrived.1 thisWorker arrived.2) =
      system.links.weight weigh places +
        Links.load weigh thisWorker outgoing := by
  cases incoming with
  | none => exact Links.weight_sendAll outgoing inside targets
  | some arrived =>
      obtain ⟨source, isHead⟩ := head arrived rfl
      cases queued : system.links arrived.1 thisWorker with
      | nil => simp [queued] at isHead
      | cons message rest =>
          obtain rfl : message = arrived.2 := by simpa [queued] using isHead
          have taken : system.links.weight weigh places =
              (system.links.set arrived.1 thisWorker rest).weight weigh
                places + weigh arrived.1 thisWorker arrived.2 :=
            Links.weight_take source inside queued
          have sent : ((system.links.set arrived.1 thisWorker rest).sendAll
                thisWorker outgoing).weight weigh places =
              (system.links.set arrived.1 thisWorker rest).weight weigh
                places + Links.load weigh thisWorker outgoing :=
            Links.weight_sendAll outgoing inside targets
          simp only [System.moved, Option.elim_some, queued, List.tail_cons]
          omega

theorem Step.liability (selects : Selects job.partitioner)
    (later : rescale.Later) (joins : rescale.Joins job.partitioner record.key)
    (bundled : (system.workers event.worker).distributor.router.Bundled)
    (step : rescale.Step job system event worker outgoing) :
    rescale.liability job.partitioner (system.moved event.worker
        (system.incoming event) worker outgoing) record +
        3 * rescale.entries system record ≤
      rescale.liability job.partitioner system record +
        3 * rescale.entries (system.moved event.worker (system.incoming event)
          worker outgoing) record := by
  have inside : event.worker ∈ rescale.participants.items.toFinset :=
    List.mem_toFinset.mpr step.participant
  have balance := balance_of_move record selects later joins
    step.participant step.before bundled step.move
  have weight := weight_moved worker outgoing
    (rescale.toll job.partitioner record) inside (fun arrived incoming =>
      ⟨List.mem_toFinset.mpr (step.sender arrived incoming).1,
        (step.head arrived incoming).2⟩) fun addressed member tolled =>
      List.mem_toFinset.mpr (step.sends_record member fun silent =>
        tolled (toll_of_record? silent _ _)).1
  have entered : rescale.entries (system.moved event.worker
      (system.incoming event) worker outgoing) record =
        rescale.entries system record +
          ((system.received event).filterMap Message.data?).count record :=
    sum_gain inside
      (fun other _ different => by simp [System.moved_worker, different])
      (by simp [System.moved_worker, Worker.entries, step.move.taken])
  have crossed : worker.crossings record =
      (system.workers event.worker).crossings record +
        (outgoing.filterMap fun addressed =>
          addressed.2.record?).count record := by
    simp [Worker.crossings, step.move.sent]
  simp only [Rescale.liability, entered]
  rw [← Finset.add_sum_erase _ _ inside, ← Finset.add_sum_erase _ (fun other =>
    (system.workers other).crossings record + _) inside]
  have others : ∑ other ∈ rescale.participants.items.toFinset.erase event.worker,
      (((system.moved event.worker (system.incoming event) worker
          outgoing).workers other).crossings record +
        rescale.held job.partitioner record other ((system.moved event.worker
          (system.incoming event) worker outgoing).workers
            other).distributor.router) =
      ∑ other ∈ rescale.participants.items.toFinset.erase event.worker,
        ((system.workers other).crossings record +
          rescale.held job.partitioner record other
            (system.workers other).distributor.router) :=
    Finset.sum_congr rfl fun other member => by
      simp only [System.moved_worker, if_neg (Finset.ne_of_mem_erase member)]
  rw [others]
  simp only [System.moved_worker, if_true, crossed]
  simp only [income, expense] at balance
  omega

omit [DecidableEq K] [DecidableEq V] [DecidableEq T] [MaybeTime T] in
theorem begin_buffered {settled : System K V T VO S L}
    (running : Running rescale.old rescale.base settled)
    {thisWorker : WorkerId} (member : thisWorker ∈ rescale.participants) :
    ((rescale.begin job settled).workers
      thisWorker).distributor.router.buffered = [] := by
  rw [begin_router running member]
  rfl

omit [MaybeTime T] in
theorem begin_liability {settled : System K V T VO S L}
    (running : Running rescale.old rescale.base settled) :
    rescale.liability job.partitioner (rescale.begin job settled) record ≤
      3 * rescale.copies settled record := by
  have workers : ∑ worker ∈ rescale.participants.items.toFinset,
      (((rescale.begin job settled).workers worker).crossings record +
        rescale.held job.partitioner record worker
          ((rescale.begin job settled).workers worker).distributor.router) =
      0 := by
    refine Finset.sum_eq_zero fun worker inside => ?_
    have member : worker ∈ rescale.participants := List.mem_toFinset.mp inside
    simp [held, Worker.crossings, begin_sent member, begin_buffered running member]
  rw [liability, workers, Nat.zero_add]
  refine Links.weight_le_mul 3 fun source target message => ?_
  cases message with
  | data message =>
      simp only [toll, NetworkMessage.record?, NetworkMessage.data?,
        Option.map_some, Option.some.injEq]
      split
      next => exact fare_le_three record.key source _
      next => exact Nat.zero_le _
  | epoch | barrierMarker | suspendMarker | acquire | upgrade | ackUpgrade =>
      exact Nat.zero_le _

/-- In a rescale from one worker set to another each record which enters a
distributor, or is still on its way when the rescale begins, crosses at most
three channels. -/
theorem crossings_le_three {settled : System K V T VO S L}
    (selects : Selects job.partitioner) (later : rescale.Later)
    (running : Running rescale.old rescale.base settled)
    (run : Reaches (fun state event => state.step job event) rescale.Permits
      (rescale.begin job settled) system)
    (record : DataMessage K V T)
    (joins : rescale.Joins job.partitioner record.key) :
    rescale.crossings system record ≤
      3 * (rescale.entries system record + rescale.copies settled record) := by
  suffices paid : rescale.liability job.partitioner system record ≤
      3 * (rescale.entries system record + rescale.copies settled record) by
    refine le_trans ?_ paid
    exact (Finset.sum_le_sum fun _ _ => Nat.le_add_right _ _).trans
      (Nat.le_add_right _ _)
  refine (run_invariant (fun state =>
      (∀ worker ∈ rescale.participants,
        (state.workers worker).distributor.router.Bundled) ∧
      rescale.liability job.partitioner state record ≤
        3 * (rescale.entries state record + rescale.copies settled record))
    (begin_shaped running) ?_ (fun _ _ => id) ?_ run).2.2
  · refine ⟨fun worker member => ?_, ?_⟩
    · intro message isHeld
      rw [begin_buffered running member] at isHeld
      cases isHeld
    · refine (begin_liability running).trans ?_
      exact Nat.mul_le_mul_left 3 (Nat.le_add_left _ _)
  · rintro state event worker outgoing - ⟨bundled, paid⟩ - step
    refine ⟨fun other member => ?_, ?_⟩
    · rw [System.moved_worker]
      split
      next =>
        exact bundled_of_move step.before
          (bundled event.worker step.participant) step.move
      next => exact bundled other member
    · have spent := step.liability selects later joins
        (bundled event.worker step.participant)
      omega

end

end Rescale

def replacement : Rescale where
  old := IndexSet.ofList [0, 1]
  new := IndexSet.ofList [2]
  version := 1
  base := 0

/-- A record of key 3 enters at worker 0, which sends it to worker 1.  Both have
upgraded when worker 1 sends it on to worker 2, which takes worker 0 for the old
owner, for it was built with all three. -/
def replacementTrace : List (Event Nat Unit Nat) :=
  [.receiveLocal 0 (.data ⟨3, (), 0⟩),
    .receiveLocal 0 (.rescale replacement.message), .operator 0, .sink 0,
    .lifecycle 0, .lifecycle 0,
    .receiveLocal 1 (.rescale replacement.message), .operator 1, .sink 1,
    .lifecycle 1, .lifecycle 1,
    .receiveLocal 2 (.rescale replacement.message), .operator 2, .sink 2,
    .lifecycle 2,
    .receiveRemote 1 0, .receiveRemote 2 1, .receiveRemote 2 1,
    .receiveRemote 0 1, .receiveRemote 0 2, .receiveRemote 2 0,
    .receiveRemote 2 0]

@[irreducible] def replacementState : System Nat Unit Nat Nat Nat Unit :=
  replay (fun state event => System.step countJob state event)
    (replacement.begin countJob (System.initial countJob replacement.old))
    replacementTrace

theorem replacement_crosses_four :
    Reaches (fun state event => System.step countJob state event)
        replacement.Permits
        (replacement.begin countJob (System.initial countJob replacement.old))
        replacementState ∧
      replacement.copies (System.initial countJob replacement.old)
        (⟨3, (), 0⟩ : DataMessage Nat Unit Nat) = 0 ∧
      replacement.entries replacementState ⟨3, (), 0⟩ = 1 ∧
      replacement.crossings replacementState ⟨3, (), 0⟩ = 4 := by
  refine ⟨?_, by decide +kernel, by decide +kernel, by decide +kernel⟩
  unfold replacementState
  exact Follows.reaches replacementTrace .refl (by decide +kernel)

def departure : Rescale where
  old := IndexSet.ofList [0, 1, 2]
  new := IndexSet.ofList [0, 1]
  version := 1
  base := 0

/-- A record of key 2 enters at worker 1, which sends it to the new owner 0; that
one sends it to the old owner 2, which has upgraded and sends it back. -/
def departureTrace : List (Event Nat Unit Nat) :=
  [.receiveLocal 1 (.rescale departure.message), .operator 1, .sink 1,
    .lifecycle 1, .lifecycle 1,
    .receiveLocal 2 (.rescale departure.message), .operator 2, .sink 2,
    .lifecycle 2, .lifecycle 2,
    .receiveLocal 0 (.rescale departure.message), .operator 0, .sink 0,
    .lifecycle 0,
    .receiveLocal 1 (.data ⟨2, (), 0⟩), .receiveRemote 0 1, .receiveRemote 0 1,
    .receiveRemote 2 0, .receiveRemote 0 2, .receiveRemote 0 2]

@[irreducible] def departureState : System Nat Unit Nat Nat Nat Unit :=
  replay (fun state event => System.step countJob state event)
    (departure.begin countJob (System.initial countJob departure.old))
    departureTrace

theorem departure_crosses_three :
    departure.crossings departureState ⟨2, (), 0⟩ = 3 ∧
      departure.crossings departureState ⟨2, (), 0⟩ ≤
        3 * (departure.entries departureState ⟨2, (), 0⟩ +
          departure.copies (System.initial countJob departure.old)
            (⟨2, (), 0⟩ : DataMessage Nat Unit Nat)) := by
  have run : Reaches (fun state event => System.step countJob state event)
      departure.Permits
      (departure.begin countJob (System.initial countJob departure.old))
      departureState := by
    unfold departureState
    exact Follows.reaches departureTrace .refl (by decide +kernel)
  exact ⟨by decide +kernel, Rescale.crossings_le_three
    (fun key _ nonempty => indexSelect_mem key nonempty)
    (fun _ => by decide)
    (Running.initial countJob departure.old) run _
    (Rescale.joins_of_range 3 2 rfl rfl)⟩

end Malstrom.Keyed
