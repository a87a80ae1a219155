import Malstrom.Data.Sweep
import Malstrom.Keyed.Targets

namespace Malstrom.Keyed

open Data Operators

variable {K V T VO S L : Type}

/-! Where the state of a key may be while a rescale moves it.  A key which is
to leave a worker is listed for collection before its router collects, and is
gone once it has been collected. -/

def CollectRouter.currentKey (router : CollectRouter K V T) : Option K :=
  router.currentCollect.map Collect.key

theorem CollectRouter.isCollecting_iff [DecidableEq K]
    {router : CollectRouter K V T} {key : K} :
    router.isCollecting key = true ↔ router.currentKey = some key := by
  cases currentEquation : router.currentCollect with
  | none => simp [isCollecting, currentKey, currentEquation]
  | some collect => simp [isCollecting, currentKey, currentEquation]

theorem Distributor.takeReport_interrogate [DecidableEq K]
    {distributor : Distributor K V T} {report : Report K S}
    {router : InterrogateRouter K}
    (interrogating : distributor.router = .interrogate router)
    (noKeys : ∀ keys, report ≠ .keys keys) :
    (distributor.takeReport report).router = .interrogate router := by
  cases report with
  | keys keys => exact absurd rfl (noKeys keys)
  | nothing => exact interrogating
  | persist _ _ => exact interrogating
  | state _ _ => simp [takeReport, interrogating]

/-- A report adds to the cell of a collection and leaves the rest of the
router alone. -/
theorem Distributor.takeReport_collect [DecidableEq K]
    (distributor : Distributor K V T) (report : Report K S)
    {router : CollectRouter K V T}
    (collecting : distributor.router = .collect router) :
    ∃ next, (distributor.takeReport report).router = .collect next ∧
      next.whitelist = router.whitelist ∧
      next.buffered = router.buffered ∧
      next.currentKey = router.currentKey := by
  cases report with
  | keys _ => exact ⟨router, by simp [takeReport, collecting], rfl, rfl, rfl⟩
  | nothing => exact ⟨router, collecting, rfl, rfl, rfl⟩
  | persist _ _ => exact ⟨router, collecting, rfl, rfl, rfl⟩
  | state operatorId state =>
      refine ⟨{ router with
        currentCollect := router.currentCollect.map fun collect =>
          collect.addState operatorId state },
        by simp [takeReport, collecting], rfl, rfl, ?_⟩
      simp [CollectRouter.currentKey, Function.comp_def]

namespace Rescale

/-- The interrogation of the worker will list the key, or the key may stay. -/
def Movable (rescale : Rescale) (partitioner : WorkerPartitioner K)
    (worker : WorkerId) (key : K) : Prop :=
  partitioner key rescale.new = worker ∨
    partitioner key (rescale.buildSet worker) ≠ partitioner key rescale.new

/-- What has to hold of a key for its record to be handed downstream. -/
def Fits (rescale : Rescale) (partitioner : WorkerPartitioner K)
    (worker : WorkerId) (router : MessageRouter K V T) (started : Prop)
    (key : K) : Prop :=
  match router with
  | .normal _ =>
      (started → partitioner key rescale.new = worker) ∧
        (¬started → rescale.Movable partitioner worker key)
  | .interrogate interrogating =>
      partitioner key rescale.new = worker ∨
        key ∈ interrogating.interrogateMsg.shared
  | .collect collecting =>
      partitioner key rescale.new = worker ∨ key ∈ collecting.whitelist
  | .finished _ => partitioner key rescale.new = worker

def KeyIs (holds : K → Prop) (message : Message K V T) : Prop :=
  ∀ key, message.key? = some key → holds key

theorem keyIs_of_none {holds : K → Prop} {message : Message K V T}
    (keyless : message.key? = none) : KeyIs holds message := by
  intro key found
  rw [keyless] at found
  cases found

/-- Where the keys of an operator's state and of its queue belong, by the
state of the router. -/
def Placed [DecidableEq K] (rescale : Rescale)
    (partitioner : WorkerPartitioner K) (worker : WorkerId)
    (router : MessageRouter K V T) (started : Prop) (state : IndexMap K S)
    (queue : List (Message K V T)) : Prop :=
  match router with
  | .normal normal =>
      (∀ message ∈ queue, message.isClone = false) ∧
        (∀ key ∈ state,
          rescale.Fits partitioner worker (.normal normal : MessageRouter K V T)
            started key) ∧
        ∀ message ∈ queue, KeyIs (rescale.Fits partitioner worker
          (.normal normal : MessageRouter K V T) started) message
  | .interrogate interrogating =>
      Sweeping Message.isInterrogate
        (KeyIs (rescale.Movable partitioner worker))
        (KeyIs (rescale.Fits partitioner worker
          (.interrogate interrogating : MessageRouter K V T) started))
        (∀ key ∈ state, rescale.Movable partitioner worker key)
        (∀ key ∈ state, rescale.Fits partitioner worker
          (.interrogate interrogating : MessageRouter K V T) started key)
        queue
  | .collect collecting =>
      (collecting.currentKey = none →
        ∀ message ∈ queue, message.isClone = false) ∧
      (∀ current, collecting.currentKey = some current →
        current ∉ collecting.whitelist ∧
        (partitioner current rescale.new ≠ worker →
          Sweeping (Message.isCollect current) (fun _ => True)
            (fun message => message.key? ≠ some current) True
            (current ∉ state) queue)) ∧
      (∀ key ∈ state, rescale.Fits partitioner worker (.collect collecting)
        started key ∨ collecting.currentKey = some key) ∧
      ∀ message ∈ queue, KeyIs (fun key => rescale.Fits partitioner worker
        (.collect collecting) started key ∨
          collecting.currentKey = some key) message
  | .finished _ =>
      (∀ message ∈ queue, message.isClone = false) ∧
        (∀ key ∈ state, partitioner key rescale.new = worker) ∧
        ∀ message ∈ queue,
          KeyIs (fun key => partitioner key rescale.new = worker) message

section

variable [DecidableEq K] {rescale : Rescale}
  {partitioner : WorkerPartitioner K} {worker : WorkerId}
  {router : MessageRouter K V T} {started : Prop} {state state' : IndexMap K S}
  {queue more : List (Message K V T)}

theorem Placed.shrink (placed : rescale.Placed partitioner worker router started
      state queue)
    (shrinks : ∀ key ∈ state', key ∈ state) :
    rescale.Placed partitioner worker router started state' queue := by
  cases router with
  | normal normal =>
      exact ⟨placed.1, fun key member => placed.2.1 key (shrinks key member),
        placed.2.2⟩
  | interrogate interrogating =>
      exact Sweeping.mono placed (fun _ => id)
        (fun reader key member => reader key (shrinks key member))
        (fun reader key member => reader key (shrinks key member))
  | collect collecting =>
      refine ⟨placed.1, fun current found => ?_,
        fun key member => placed.2.2.1 key (shrinks key member), placed.2.2.2⟩
      obtain ⟨unlisted, sweeping⟩ := placed.2.1 current found
      exact ⟨unlisted, fun away => (sweeping away).mono (fun _ => id) id
        fun gone member => gone (shrinks _ member)⟩
  | finished finished =>
      exact ⟨placed.1, fun key member => placed.2.1 key (shrinks key member),
        placed.2.2⟩

/-- Only a normal router minds whether the rescale has begun. -/
theorem Placed.busy {begun : Prop}
    (placed : rescale.Placed partitioner worker router started state queue)
    (busy : ∀ normal, router ≠ .normal normal) :
    rescale.Placed partitioner worker router begun state queue := by
  cases router with
  | normal normal => exact absurd rfl (busy normal)
  | interrogate interrogating => exact placed
  | collect collecting => exact placed
  | finished finished => exact placed

theorem Placed.push (placed : rescale.Placed partitioner worker router started
      state queue)
    (noClone : ∀ message ∈ more, message.isClone = false)
    (fits : ∀ message ∈ more,
      KeyIs (rescale.Fits partitioner worker router started) message) :
    rescale.Placed partitioner worker router started state (queue ++ more) := by
  have both {holds : Message K V T → Prop}
      (before : ∀ message ∈ queue, holds message)
      (now : ∀ message ∈ more, holds message) :
      ∀ message ∈ queue ++ more, holds message := fun message member =>
    (List.mem_append.mp member).elim (before message) (now message)
  cases router with
  | normal normal =>
      exact ⟨both placed.1 noClone, placed.2.1, both placed.2.2 fits⟩
  | interrogate interrogating => exact Sweeping.push placed fits
  | collect collecting =>
      refine ⟨fun idle => both (placed.1 idle) noClone, fun current found => ?_,
        placed.2.2.1, both placed.2.2.2 fun message member key found =>
          .inl (fits message member key found)⟩
      obtain ⟨unlisted, sweeping⟩ := placed.2.1 current found
      refine ⟨unlisted, fun away => (sweeping away).push ?_⟩
      intro message member found
      rcases fits message member _ found with here | listed
      · exact away here
      · exact unlisted listed
  | finished finished =>
      exact ⟨both placed.1 noClone, placed.2.1, both placed.2.2 fits⟩

theorem Course.fits {current : Worker K V T VO S L} {arrival : Arrival K V T}
    (shape : rescale.Shape partitioner worker current)
    (course : rescale.Course partitioner worker current arrival router
      (some worker))
    (ahead : ∀ version, arrival.version = some version →
      current.distributor.router.version < version →
      rescale.Fits partitioner worker current.distributor.router
        (rescale.Started current) arrival.message.key) :
    rescale.Fits partitioner worker router (rescale.Started current)
      arrival.message.key := by
  generalize targetEquation : some worker = target at course
  cases course with
  | ahead versionEquation newer => exact ahead _ versionEquation newer
  | waiting phase unstarted =>
      have here := (Option.some.inj targetEquation).symm
      rw [phase]
      refine ⟨fun started => absurd started unstarted, fun _ => ?_⟩
      by_cases newHere : partitioner arrival.message.key rescale.new = worker
      · exact .inl newHere
      · exact .inr fun same => newHere (same ▸ here)
  | @listed router interrogating _ oldHere newAway =>
      right
      rw [Interrogate.mem_addKeys]
      refine .inr ⟨by simp, ?_⟩
      rw [shape.tester interrogating]
      exact decide_eq_true fun same => newAway (same ▸ oldHere)
  | interrogating interrogating _ stays =>
      rw [interrogating]
      exact .inl (stays (Option.some.inj targetEquation).symm)
  | uncollected collecting _ _ listed =>
      rw [collecting]
      exact .inr listed
  | buffered _ _ _ _ _ => cases targetEquation
  | collected _ _ newAway _ _ =>
      exact absurd (Option.some.inj targetEquation).symm newAway
  | collectOwned collecting _ newHere _ =>
      rw [collecting]
      exact .inl newHere
  | collectOld collecting _ newHere _ =>
      rw [collecting]
      exact .inl newHere
  | finishedAway _ _ newAway =>
      exact absurd (Option.some.inj targetEquation).symm newAway
  | finishedOwned finished _ newHere _ =>
      rw [finished]
      exact newHere
  | finishedOld finished _ newHere _ _ _ =>
      rw [finished]
      exact newHere
  | upgraded phase started =>
      rw [phase]
      exact ⟨fun _ => (Option.some.inj targetEquation).symm,
        fun unstarted => absurd started unstarted⟩

theorem Course.placed {current : Worker K V T VO S L} {arrival : Arrival K V T}
    {target : Option WorkerId}
    (course : rescale.Course partitioner worker current arrival router target)
    (placed : rescale.Placed partitioner worker current.distributor.router
      started state queue) :
    rescale.Placed partitioner worker router started state queue := by
  cases course with
  | @listed router interrogating _ _ _ =>
      rw [interrogating] at placed
      have grows (key : K) (fits : rescale.Fits partitioner worker
          (.interrogate router : MessageRouter K V T) started key) :
          rescale.Fits partitioner worker
            (.interrogate { router with
              interrogateMsg :=
                router.interrogateMsg.addKeys [arrival.message.key] } :
              MessageRouter K V T) started key :=
        fits.imp_right fun listed => Interrogate.mem_addKeys.mpr (.inl listed)
      exact Sweeping.mono placed
        (fun message fits key found => grows key (fits key found)) id
        (fun reader key member => grows key (reader key member))
  | buffered collecting _ _ _ _ =>
      rw [collecting] at placed
      exact placed
  | _ => exact placed

theorem Placed.receive {operator : StatefulOp K V T VO S L}
    {distributor : Distributor K V T} {current next : OperatorState K S L}
    {message : Message K V T} {emitted : List (Message K VO T)}
    {report : Report K S} (keeps : operator.logic.KeepsKeys)
    (tester : ∀ interrogating,
      distributor.router = .interrogate interrogating →
        interrogating.interrogateMsg.tester = rescale.tester partitioner worker)
    (placed : rescale.Placed partitioner worker distributor.router started
      current.state (message :: queue))
    (receives : operator.receive current message = (next, emitted, report)) :
    rescale.Placed partitioner worker (distributor.takeReport report).router
      started next.state queue := by
  have known (key : K) (member : key ∈ next.state) :
      key ∈ current.state ∨ message.key? = some key := by
    have held : key ∈ (operator.receive current message).1.state := by
      rw [receives]
      exact member
    exact StatefulOp.mem_receive keeps held
  have tail {holds : Message K V T → Prop}
      (all : ∀ found ∈ message :: queue, holds found) :
      ∀ found ∈ queue, holds found := fun found member =>
    all found (List.mem_cons_of_mem _ member)
  have ofState {holds : K → Prop} (held : ∀ key ∈ current.state, holds key)
      (headHolds : KeyIs holds message) : ∀ key ∈ next.state, holds key :=
    fun key member => (known key member).elim (held key) (headHolds key)
  cases routerEquation : distributor.router with
  | normal normal =>
      have same : (distributor.takeReport report).router = .normal normal := by
        cases report <;> simp [Distributor.takeReport, routerEquation]
      rw [routerEquation] at placed
      rw [same]
      exact ⟨tail placed.1, ofState placed.2.1 (placed.2.2 message (by simp)),
        tail placed.2.2⟩
  | finished finished =>
      have same : (distributor.takeReport report).router = .finished finished := by
        cases report <;> simp [Distributor.takeReport, routerEquation]
      rw [routerEquation] at placed
      rw [same]
      exact ⟨tail placed.1, ofState placed.2.1 (placed.2.2 message (by simp)),
        tail placed.2.2⟩
  | interrogate router =>
      rw [routerEquation] at placed
      by_cases asked : message = .interrogate
      · subst asked
        simp only [StatefulOp.receive, Prod.mk.injEq] at receives
        obtain ⟨rfl, -, rfl⟩ := receives
        have tested := tester router routerEquation
        have grown : (distributor.takeReport (.keys current.state.keys :
            Report K S)).router = .interrogate { router with
              interrogateMsg :=
                router.interrogateMsg.addKeys current.state.keys } := by
          simp [Distributor.takeReport, routerEquation]
        have grows (key : K) (fits : rescale.Fits partitioner worker
            (.interrogate router : MessageRouter K V T) started key) :
            rescale.Fits partitioner worker
              (.interrogate { router with
                interrogateMsg :=
                  router.interrogateMsg.addKeys current.state.keys } :
                MessageRouter K V T) started key :=
          fits.imp_right fun listed => Interrogate.mem_addKeys.mpr (.inl listed)
        rw [grown]
        refine (Sweeping.pop placed (fun isMarker => ?_) (fun _ held _ => ?_)
          (fun held _ key member => grows key (held key member))).mono
            (fun message fits key found => grows key (fits key found)) id id
        · simp [Message.isInterrogate] at isMarker
        · intro key member
          rcases held key member with stays | moves
          · exact .inl stays
          · refine .inr (Interrogate.mem_addKeys.mpr (.inr ⟨member, ?_⟩))
            rw [tested]
            exact decide_eq_true moves
      · have unmarked : message.isInterrogate = false := by
          cases message <;> first | rfl | exact absurd rfl asked
        rw [Distributor.takeReport_interrogate routerEquation fun keys same =>
          asked (receive_keys (same ▸ receives)).1]
        exact Sweeping.pop placed (fun _ => ofState)
          (fun isMarker => absurd isMarker (by simp [unmarked])) ofState
  | collect router =>
      obtain ⟨next', routerEquation', whitelist, -, currentKey⟩ :=
        distributor.takeReport_collect report routerEquation
      rw [routerEquation] at placed
      rw [routerEquation']
      simp only [Placed, Fits, whitelist, currentKey] at placed ⊢
      refine ⟨fun idle => tail (placed.1 idle), fun key found => ?_,
        ofState placed.2.2.1 (placed.2.2.2 message (by simp)),
        tail placed.2.2.2⟩
      obtain ⟨unlisted, sweeping⟩ := placed.2.1 key found
      refine ⟨unlisted, fun away => (sweeping away).pop (fun _ _ _ => trivial)
        (fun isMarker _ _ => ?_) (fun gone other => ?_)⟩
      · cases message with
        | collect collected =>
            obtain rfl : collected = key := by
              simpa [Message.isCollect] using isMarker
            have collects : collected ∉
                (operator.receive current (.collect collected)).1.state :=
              StatefulOp.not_mem_receive_collect
            rw [receives] at collects
            exact collects
        | _ => simp [Message.isCollect] at isMarker
      · exact fun member => (known key member).elim gone other

/-- Once no clone is left nothing of a key is here but what may stay or is
still listed. -/
theorem Placed.uncloned {collecting : CollectRouter K V T}
    (placed : rescale.Placed partitioner worker
      (.collect collecting : MessageRouter K V T) started state queue)
    (noClone : ∀ message ∈ queue, message.isClone = false) :
    (∀ key ∈ state, partitioner key rescale.new = worker ∨
        key ∈ collecting.whitelist) ∧
      ∀ message ∈ queue, KeyIs (fun key =>
        partitioner key rescale.new = worker ∨ key ∈ collecting.whitelist)
          message := by
  obtain ⟨-, sweeps, ofState, ofQueue⟩ := placed
  have swept (key : K) (current : collecting.currentKey = some key)
      (away : partitioner key rescale.new ≠ worker) :=
    ((sweeps key current).2 away).done fun message member =>
      Message.isCollect_of_not_isClone (noClone message member) key
  constructor
  · intro key member
    rcases ofState key member with fits | current
    · exact fits
    · by_cases here : partitioner key rescale.new = worker
      · exact .inl here
      · exact absurd member (swept key current here).1
  · intro message member key found
    rcases ofQueue message member key found with fits | current
    · exact fits
    · by_cases here : partitioner key rescale.new = worker
      · exact .inl here
      · exact absurd found ((swept key current here).2 message member)

end

section

variable [DecidableEq K] [MaybeTime T] {job : Job K V T VO S L}
  {rescale : Rescale} {system : System K V T VO S L} {event : Event K V T}
  {worker : Worker K V T VO S L}
  {outgoing : List (WorkerId × NetworkMessage K V T)}

/-- Everything at the worker is where it belongs. -/
def Stationed (rescale : Rescale) (partitioner : WorkerPartitioner K)
    (worker : WorkerId) (current : Worker K V T VO S L) : Prop :=
  rescale.Placed partitioner worker current.distributor.router
    (rescale.Started current) current.operator.state current.queue

omit [DecidableEq K] [MaybeTime T] in
theorem noClone_of_clones {current : Worker K V T VO S L}
    (clones : current.clones = 0) :
    ∀ message ∈ current.queue, message.isClone = false := by
  have none : current.queue.countP Message.isClone = 0 := by
    unfold Worker.clones at clones
    omega
  simpa [List.countP_eq_zero] using none

omit [MaybeTime T] in
theorem Placed.released {current : Worker K V T VO S L} {thisWorker : WorkerId}
    {router released : CollectRouter K V T} {started : Prop}
    {network : List (WorkerId × NetworkMessage K V T)}
    (placed : rescale.Placed job.partitioner thisWorker
      (.collect router : MessageRouter K V T) started current.operator.state
      current.queue)
    (release : Released job.partitioner current.distributor.remotes
      current.clones router released network) :
    (∀ message ∈ current.queue, message.isClone = false) ∧
      (∀ key ∈ current.operator.state,
        job.partitioner key rescale.new = thisWorker ∨
          key ∈ released.whitelist) ∧
      ∀ message ∈ current.queue, KeyIs (fun key =>
        job.partitioner key rescale.new = thisWorker ∨
          key ∈ released.whitelist) message := by
  have noClone : ∀ message ∈ current.queue, message.isClone = false := by
    cases release with
    | idle idle => exact placed.1 (by simp [CollectRouter.currentKey, idle])
    | released unwrapped _ _ => exact noClone_of_clones unwrapped
  rw [release.fixed.2.1]
  exact ⟨noClone, placed.uncloned noClone⟩

/-- What keeps a record of a higher version where it belongs: its key comes to
this worker, or the interrogation will list or has listed it. -/
def LandsMovable (rescale : Rescale) (partitioner : WorkerPartitioner K)
    (worker : WorkerId) (router : MessageRouter K V T) (key : K) : Prop :=
  match router with
  | .normal _ => rescale.Movable partitioner worker key
  | .interrogate interrogating =>
      partitioner key rescale.new = worker ∨
        key ∈ interrogating.interrogateMsg.shared
  | .collect _ | .finished _ => True

omit [DecidableEq K] [MaybeTime T] in
theorem Shape.fits_ahead {thisWorker : WorkerId}
    {current : Worker K V T VO S L} {version : Version} {key : K}
    (shape : rescale.Shape job.partitioner thisWorker current)
    (newer : current.distributor.router.version < version)
    (bounded : version ≤ rescale.version)
    (lands : rescale.LandsMovable job.partitioner thisWorker
      current.distributor.router key) :
    rescale.Fits job.partitioner thisWorker current.distributor.router
      (rescale.Started current) key := by
  cases routerEquation : current.distributor.router with
  | normal router =>
      rw [routerEquation] at newer lands
      refine ⟨fun started => ?_, fun _ => lands⟩
      cases shape with
      | waiting _ unstarted _ => exact absurd started unstarted
      | upgraded phase _ _ =>
          rw [routerEquation] at phase
          obtain rfl := Phase.normal.inj phase
          exact absurd newer (Nat.not_lt.mpr bounded)
      | interrogating phase _ _ => simp [routerEquation, MessageRouter.phase] at phase
      | collecting phase _ _ => simp [routerEquation, MessageRouter.phase] at phase
      | finished phase _ _ => simp [routerEquation, MessageRouter.phase] at phase
  | interrogate router =>
      rw [routerEquation] at lands
      exact lands
  | collect router =>
      rw [routerEquation] at newer
      rw [← (shape.collecting_clients routerEquation).1] at bounded
      exact absurd newer (Nat.not_lt.mpr bounded)
  | finished router =>
      rw [routerEquation] at newer
      cases shape with
      | finished phase _ _ =>
          rw [routerEquation] at phase
          have same : router.version = rescale.version :=
            congrArg Handover.version (Phase.finished.inj phase)
          rw [← same] at bounded
          exact absurd newer (Nat.not_lt.mpr bounded)
      | waiting phase _ _ => simp [routerEquation, MessageRouter.phase] at phase
      | interrogating phase _ _ => simp [routerEquation, MessageRouter.phase] at phase
      | collecting phase _ _ => simp [routerEquation, MessageRouter.phase] at phase
      | upgraded phase _ _ => simp [routerEquation, MessageRouter.phase] at phase

omit [DecidableEq K] [MaybeTime T] in
theorem started_after {current : Worker K V T VO S L}
    {received : List (Message K V T)} {distributor : Distributor K V T}
    {effects : Effects K V T}
    (noTrigger : received.filterMap Message.rescale? = []) :
    rescale.Started (current.after received distributor effects) =
      rescale.Started current := by
  simp [Started, Worker.after, noTrigger]

omit [MaybeTime T] in
theorem Placed.acquired {thisWorker : WorkerId} {router : MessageRouter K V T}
    {started : Prop} {state : IndexMap K S} {queue : List (Message K V T)}
    {acquire : Acquire K}
    (placed : rescale.Placed job.partitioner thisWorker router started state
      queue)
    (here : job.partitioner acquire.key rescale.new = thisWorker) :
    rescale.Placed job.partitioner thisWorker router started state
      (queue ++ [.acquire acquire]) := by
  apply placed.push
  · simp [Message.isClone]
  · intro message member key found
    obtain rfl := List.mem_singleton.mp member
    obtain rfl := Option.some.inj found
    cases router with
    | normal _ => exact ⟨fun _ => here, fun _ => .inl here⟩
    | interrogate _ => exact .inl here
    | collect _ => exact .inl here
    | finished _ => exact here

omit [MaybeTime T] in
/-- The interrogation begins with everything where it may stay or be listed. -/
theorem Placed.asked {thisWorker : WorkerId} {normal : NormalRouter}
    {interrogating : InterrogateRouter K} {started begun : Prop}
    {state : IndexMap K S} {queue : List (Message K V T)}
    (placed : rescale.Placed job.partitioner thisWorker
      (.normal normal : MessageRouter K V T) started state queue)
    (unstarted : ¬started) :
    rescale.Placed job.partitioner thisWorker
      (.interrogate interrogating : MessageRouter K V T) begun state
      (queue ++ [.interrogate]) :=
  Sweeping.start rfl
    (fun message member =>
      Message.isInterrogate_of_not_isClone (placed.1 message member))
    (fun message member key found =>
      (placed.2.2 message member key found).2 unstarted)
    (keyIs_of_none rfl)
    (fun key member => (placed.2.1 key member).2 unstarted)

omit [MaybeTime T] in
/-- Once no clone of the interrogation is left every key which moves is
listed. -/
theorem Placed.interrogated {thisWorker : WorkerId}
    {router : InterrogateRouter K} {started begun : Prop}
    {state : IndexMap K S} {queue : List (Message K V T)}
    (placed : rescale.Placed job.partitioner thisWorker
      (.interrogate router : MessageRouter K V T) started state queue)
    (noClone : ∀ message ∈ queue, message.isClone = false) :
    rescale.Placed job.partitioner thisWorker
      (.collect (CollectRouter.new router.interrogateMsg.shared
        router.oldWorkerSet router.newWorkerSet router.trigger) :
          MessageRouter K V T) begun state queue := by
  obtain ⟨ofState, ofQueue⟩ := Sweeping.done placed fun message member =>
    Message.isInterrogate_of_not_isClone (noClone message member)
  exact ⟨fun _ => noClone, by simp [CollectRouter.currentKey, CollectRouter.new],
    fun key member => .inl (ofState key member),
    fun message member key found => .inl (ofQueue message member key found)⟩

omit [MaybeTime T] in
theorem Placed.collectNext {current : Worker K V T VO S L}
    {thisWorker : WorkerId} {router released : CollectRouter K V T}
    {network : List (WorkerId × NetworkMessage K V T)} {key : K}
    {rest : IndexSet K} {started begun : Prop}
    (placed : rescale.Placed job.partitioner thisWorker
      (.collect router : MessageRouter K V T) started current.operator.state
      current.queue)
    (release : Released job.partitioner current.distributor.remotes
      current.clones router released network)
    (next : released.whitelist.pop = some (key, rest)) :
    rescale.Placed job.partitioner thisWorker
      (.collect { released with
        whitelist := rest
        currentCollect := some (Collect.new key) } : MessageRouter K V T) begun
      current.operator.state (current.queue ++ [.collect key]) := by
  obtain ⟨noClone, ofState, ofQueue⟩ := placed.released release
  obtain ⟨popped, unlisted⟩ := IndexSet.pop_eq_some next
  have listed (found : K)
      (fits : job.partitioner found rescale.new = thisWorker ∨
        found ∈ released.whitelist) :
      (job.partitioner found rescale.new = thisWorker ∨ found ∈ rest) ∨
        some key = some found := by
    rw [popped, ← or_assoc] at fits
    exact fits.imp_right fun same => congrArg some same.symm
  refine ⟨fun idle => absurd idle (by simp [CollectRouter.currentKey]),
    fun found current => ?_,
    fun found member => listed found (ofState found member), ?_⟩
  · obtain rfl : key = found := by
      simpa [CollectRouter.currentKey, Collect.new] using current
    refine ⟨unlisted, fun _ => Sweeping.start ?_ ?_ ?_ trivial trivial⟩
    · simp [Message.isCollect]
    · exact fun message member =>
        Message.isCollect_of_not_isClone (noClone message member) key
    · exact fun _ _ => trivial
  · intro message member
    rcases List.mem_append.mp member with before | now
    · exact fun found carries =>
        listed found (ofQueue message before found carries)
    · obtain rfl := List.mem_singleton.mp now
      exact keyIs_of_none rfl

omit [MaybeTime T] in
theorem Placed.concluded {current : Worker K V T VO S L}
    {thisWorker : WorkerId} {router released : CollectRouter K V T}
    {network : List (WorkerId × NetworkMessage K V T)}
    {finished : FinishedRouter} {started begun : Prop}
    (placed : rescale.Placed job.partitioner thisWorker
      (.collect router : MessageRouter K V T) started current.operator.state
      current.queue)
    (release : Released job.partitioner current.distributor.remotes
      current.clones router released network)
    (empty : ∀ key, key ∉ released.whitelist) :
    rescale.Placed job.partitioner thisWorker
      (.finished finished : MessageRouter K V T) begun current.operator.state
      current.queue := by
  obtain ⟨noClone, ofState, ofQueue⟩ := placed.released release
  exact ⟨noClone,
    fun key member => (ofState key member).resolve_right (empty key),
    fun message member key found =>
      (ofQueue message member key found).resolve_right (empty key)⟩

omit [MaybeTime T] in
theorem Placed.upgraded {thisWorker : WorkerId} {finished : FinishedRouter}
    {normal : NormalRouter} {trigger : RescaleMessage} {started begun : Prop}
    {state : IndexMap K S} {queue : List (Message K V T)}
    (placed : rescale.Placed job.partitioner thisWorker
      (.finished finished : MessageRouter K V T) started state queue)
    (isBegun : begun) :
    rescale.Placed job.partitioner thisWorker
      (.normal normal : MessageRouter K V T) begun state
      (queue ++ [.rescale trigger]) := by
  obtain ⟨noClone, ofState, ofQueue⟩ := placed
  refine ⟨?_, fun key member => ⟨fun _ => ofState key member,
    fun unstarted => absurd isBegun unstarted⟩, ?_⟩
  · intro message member
    rcases List.mem_append.mp member with before | now
    · exact noClone message before
    · obtain rfl := List.mem_singleton.mp now
      rfl
  · intro message member
    rcases List.mem_append.mp member with before | now
    · exact fun key found => ⟨fun _ => ofQueue message before key found,
        fun unstarted => absurd isBegun unstarted⟩
    · obtain rfl := List.mem_singleton.mp now
      exact keyIs_of_none rfl

omit [DecidableEq K] [MaybeTime T] in
theorem Shape.started_of_finished {thisWorker : WorkerId}
    {current : Worker K V T VO S L} {router : FinishedRouter}
    (shape : rescale.Shape job.partitioner thisWorker current)
    (finished : current.distributor.router = .finished router) :
    rescale.Started current := by
  cases shape with
  | waiting phase _ _ => simp [finished, MessageRouter.phase] at phase
  | interrogating _ started _ | collecting _ started _ | finished _ started _
  | upgraded _ started _ => exact started

theorem Step.stationed (keeps : job.operator.logic.KeepsKeys)
    (stationed : rescale.Stationed job.partitioner event.worker
      (system.workers event.worker))
    (ahead : ∀ arrival ∈ system.arrival event, ∀ version ∈ arrival.version,
      (system.workers event.worker).distributor.router.version < version →
      rescale.LandsMovable job.partitioner event.worker
        (system.workers event.worker).distributor.router arrival.message.key)
    (bounded : ∀ arrival ∈ system.arrival event, ∀ version ∈ arrival.version,
      version ≤ rescale.version)
    (acquired : ∀ remote acquire,
      system.incoming event = some (remote, .acquire acquire) →
        job.partitioner acquire.key rescale.new = event.worker)
    (step : rescale.Step job system event worker outgoing) :
    rescale.Stationed job.partitioner event.worker worker := by
  have move := step.move
  have before := step.before
  have triggers := step.triggers
  unfold System.arrival at ahead bounded
  generalize system.incoming event = incoming at move ahead bounded acquired
  generalize system.received event = received at move ahead bounded triggers
  generalize system.operated event = operated at move
  generalize system.workers event.worker = current
    at move before stationed ahead triggers
  have lands (arrival : Arrival K V T)
      (arrives : arrivalOf event.worker incoming received = some arrival)
      (version : Version) (versionEquation : arrival.version = some version)
      (newer : current.distributor.router.version < version) :
      rescale.Fits job.partitioner event.worker current.distributor.router
        (rescale.Started current) arrival.message.key :=
    before.fits_ahead newer (bounded arrival arrives version versionEquation)
      (ahead arrival arrives version versionEquation newer)
  unfold Stationed at stationed ⊢
  cases move with
  | quiet sameRouter _ quietOutput _ _ quietReceived =>
      rw [started_after (List.filterMap_eq_nil_iff.mpr fun message member =>
        (quietReceived message member).2)]
      simp only [Worker.after, sameRouter]
      exact stationed.push
        (fun message member =>
          (Message.key?_of_isQuiet (quietOutput message member)).2)
        fun message member => keyIs_of_none
          (Message.key?_of_isQuiet (quietOutput message member)).1
  | kept arrives routed =>
      rw [started_after (arrivalOf_noTrigger arrives)]
      have course := before.course routed
      apply (course.placed stationed).push
      · simp [Message.isClone]
      · intro message member key found
        obtain rfl := List.mem_singleton.mp member
        obtain rfl := Option.some.inj found
        exact course.fits before (lands _ arrives)
  | buffered arrives routed =>
      rw [started_after (arrivalOf_noTrigger arrives)]
      simpa [Worker.after] using (before.course routed).placed stationed
  | forwarded arrives routed _ _ =>
      rw [started_after (arrivalOf_noTrigger arrives)]
      simpa [Worker.after] using (before.course routed).placed stationed
  | @acquire remote acquire =>
      rw [started_after rfl]
      exact stationed.acquired (acquired remote acquire rfl)
  | upgrade =>
      rw [started_after rfl]
      simpa [Worker.after] using stationed
  | ackUpgrade =>
      rw [started_after rfl]
      simpa [Worker.after] using stationed
  | @rescale trigger normal waiting =>
      have unstarted := (triggers trigger (by simp [Message.rescale?])).2
        (by simp [waiting, MessageRouter.isNormal])
      rw [waiting] at stationed
      exact stationed.asked unstarted
  | rescaleCopy busy =>
      simpa [Worker.after] using stationed.busy busy
  | interrogated interrogating unwrapped =>
      rw [interrogating] at stationed
      simp only [Worker.after, List.append_nil]
      exact stationed.interrogated (noClone_of_clones unwrapped)
  | collectNext collecting release next =>
      rw [collecting] at stationed
      exact stationed.collectNext release next
  | concluded collecting release empty =>
      rw [collecting] at stationed
      simp only [Worker.after, List.append_nil]
      exact stationed.concluded release empty
  | finished finished allUpgraded =>
      have begun := before.started_of_finished finished
      rw [finished] at stationed
      rw [started_after rfl]
      exact stationed.upgraded begun
  | scheduled _ => exact stationed.shrink fun key => StatefulOp.mem_schedule keeps
  | received head receives reports =>
      subst reports
      rw [head] at stationed
      refine Placed.receive keeps ?_
        (stationed.shrink fun key => StatefulOp.mem_schedule keeps) receives
      intro router interrogating
      exact before.tester interrogating
  | sink => exact stationed

end

end Rescale

end Malstrom.Keyed
