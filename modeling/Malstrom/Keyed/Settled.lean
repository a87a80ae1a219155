import Malstrom.Keyed.Handshake

namespace Malstrom.Keyed

open Data Operators

variable {K V T VO S L : Type}

/-! The life of a job: one rescale after the other, each completed before the
next one begins. -/

namespace Rescale

/-- The rescale is about to begin: the joining workers are built with all
active workers, the histories restart.  The links keep what they carry. -/
def begin (rescale : Rescale) (job : Job K V T VO S L)
    (system : System K V T VO S L) : System K V T VO S L :=
  { system with
    workers := fun worker =>
      if worker ∈ rescale.old then
        { system.workers worker with taken := [], handed := [], sent := [] }
      else if worker ∈ rescale.new then
        Worker.build job worker rescale.participants
      else system.workers worker }

def Completed (rescale : Rescale) (system : System K V T VO S L) : Prop :=
  ∀ worker ∈ rescale.participants, rescale.Upgraded (system.workers worker)

instance (rescale : Rescale) (system : System K V T VO S L) :
    Decidable (rescale.Completed system) :=
  decidable_of_iff (∀ worker ∈ rescale.participants.items,
    rescale.Upgraded (system.workers worker)) Iff.rfl

/-- The rescale takes over from a worker set at a configuration version. -/
structure Continues (rescale : Rescale) (workers : IndexSet WorkerId)
    (configVersion : Option Version) : Prop where
  old : rescale.old = workers
  base : rescale.base = configVersion.getD 0
  later : ∀ version ∈ configVersion, version < rescale.version

end Rescale

/-- The states of a job between two rescales, with its worker set and its
configuration version. -/
inductive Settled [DecidableEq K] [MaybeTime T] (job : Job K V T VO S L)
    (admissible : IndexSet WorkerId → Prop)
    (allowed : Rescale → System K V T VO S L → Event K V T → Prop) :
    IndexSet WorkerId → Option Version → System K V T VO S L → Prop
  | start {workers : IndexSet WorkerId} (valid : admissible workers) :
      Settled job admissible allowed workers none (System.initial job workers)
  | rescaled {workers : IndexSet WorkerId} {configVersion : Option Version}
      {settled system : System K V T VO S L} (rescale : Rescale)
      (history : Settled job admissible allowed workers configVersion settled)
      (continues : rescale.Continues workers configVersion)
      (valid : admissible rescale.new)
      (run : Reaches (fun state event => state.step job event)
        (allowed rescale) (rescale.begin job settled) system)
      (completed : rescale.Completed system) :
      Settled job admissible allowed rescale.new (some rescale.version) system

/-! ### Versions of the past -/

/-- The versions an `Upgrade` or its acknowledgement of the past may bear. -/
def Past (bound : Option Version) (version : Version) : Prop :=
  ∃ last ∈ bound, version ≤ last

/-- All of the handshake that is recorded or still on a link is of the past. -/
structure Stale (bound : Option Version) (system : System K V T VO S L) :
    Prop where
  lastVersion : ∀ worker other version,
    ((system.workers worker).knowledge other).lastVersion = some version →
      Past bound version
  lastAck : ∀ worker other version,
    ((system.workers worker).knowledge other).lastAck = some version →
      Past bound version
  linked : ∀ source target version,
    .upgrade version ∈ system.links source target ∨
      .ackUpgrade version ∈ system.links source target → Past bound version

theorem knowledge_build (job : Job K V T VO S L) (worker other : WorkerId)
    (workers : IndexSet WorkerId) :
    (Worker.build job worker workers).knowledge other = ⟨none, none⟩ := by
  simp only [Worker.knowledge, Worker.build, Distributor.fresh,
    Remotes.knowledge, Remotes.lastVersion, Remotes.lastAck,
    Remotes.get?_ofWorkers]
  split <;> rfl

theorem Stale.initial (job : Job K V T VO S L) (workers : IndexSet WorkerId) :
    Stale none (System.initial job workers) where
  lastVersion worker other version known := by
    simp [System.initial, knowledge_build] at known
  lastAck worker other version known := by
    simp [System.initial, knowledge_build] at known
  linked source target version member := by simp [System.initial] at member

theorem Stale.begin {bound : Option Version} {job : Job K V T VO S L}
    {system : System K V T VO S L} (rescale : Rescale)
    (stale : Stale bound system) : Stale bound (rescale.begin job system) where
  lastVersion worker other version known := by
    simp only [Rescale.begin] at known
    split at known
    · exact stale.lastVersion worker other version known
    · split at known
      · simp [knowledge_build] at known
      · exact stale.lastVersion worker other version known
  lastAck worker other version known := by
    simp only [Rescale.begin] at known
    split at known
    · exact stale.lastAck worker other version known
    · split at known
      · simp [knowledge_build] at known
      · exact stale.lastAck worker other version known
  linked := stale.linked

theorem Stale.later {bound : Option Version} {system : System K V T VO S L}
    {version : Version} (stale : Stale bound system)
    (later : ∀ last ∈ bound, last < version) :
    Stale (some version) system := by
  have past (old : Version) (isPast : Past bound old) :
      Past (some version) old := by
    obtain ⟨last, member, atMost⟩ := isPast
    exact ⟨version, rfl, Nat.le_trans atMost (Nat.le_of_lt (later last member))⟩
  exact ⟨fun worker other old known => past old (stale.lastVersion worker other
      old known),
    fun worker other old known => past old (stale.lastAck worker other old known),
    fun source target old member => past old (stale.linked source target old
      member)⟩

theorem Released.not_handshake {partitioner : WorkerPartitioner K}
    {remotes : Remotes T} {clones : Nat} {router released : CollectRouter K V T}
    {network : List (WorkerId × NetworkMessage K V T)}
    (release : Released partitioner remotes clones router released network)
    {target : WorkerId} {message : NetworkMessage K V T}
    (member : (target, message) ∈ network) : message.isPayload = true :=
  release.payload target message (Links.mem_addressedTo.mpr member)

section

variable [DecidableEq K] [MaybeTime T] {job : Job K V T VO S L}
  {rescale : Rescale} {system : System K V T VO S L} {event : Event K V T}
  {worker : Worker K V T VO S L}
  {outgoing : List (WorkerId × NetworkMessage K V T)}

theorem Rescale.Step.sends_upgrade
    (step : rescale.Step job system event worker outgoing)
    {target : WorkerId} {version : Version}
    (member : (target, .upgrade version) ∈ outgoing) :
    version = rescale.version := by
  have move := step.move
  generalize system.incoming event = incoming at move
  generalize system.received event = received at move
  generalize system.operated event = operated at move
  cases move with
  | quiet _ _ _ quietNetwork _ _ =>
      have quiet := quietNetwork _ member
      simp [NetworkMessage.isQuiet] at quiet
  | collectNext _ release _ =>
      have payload := release.not_handshake member
      simp [NetworkMessage.isPayload] at payload
  | @concluded router _ _ collecting release _ =>
      rcases List.mem_append.mp member with released | announced
      · have payload := release.not_handshake released
        simp [NetworkMessage.isPayload] at payload
      · have same : version = router.version := by
          simp only [broadcast, List.mem_map, Prod.mk.injEq,
            NetworkMessage.upgrade.injEq] at announced
          obtain ⟨_, _, _, same⟩ := announced
          exact same.symm
        exact same.trans (step.before.collecting_clients collecting).1
  | _ => simp at member

theorem Rescale.Step.sends_ack
    (step : rescale.Step job system event worker outgoing)
    {target : WorkerId} {version : Version}
    (member : (target, .ackUpgrade version) ∈ outgoing) :
    system.incoming event = some (target, .upgrade version) := by
  have move := step.move
  generalize system.incoming event = incoming at move ⊢
  generalize system.received event = received at move
  generalize system.operated event = operated at move
  cases move with
  | quiet _ _ _ quietNetwork _ _ =>
      have quiet := quietNetwork _ member
      simp [NetworkMessage.isQuiet] at quiet
  | collectNext _ release _ =>
      have payload := release.not_handshake member
      simp [NetworkMessage.isPayload] at payload
  | concluded collecting release _ =>
      rcases List.mem_append.mp member with released | announced
      · have payload := release.not_handshake released
        simp [NetworkMessage.isPayload] at payload
      · simp [broadcast] at announced
  | upgrade =>
      simp only [List.mem_singleton, Prod.mk.injEq,
        NetworkMessage.ackUpgrade.injEq] at member
      rw [member.1, member.2]
  | _ => simp at member

/-- A worker learns of a version only from the message it takes. -/
theorem Rescale.Step.learns (step : rescale.Step job system event worker outgoing)
    (other : WorkerId) :
    (∀ version, (worker.knowledge other).lastVersion = some version →
      ((system.workers event.worker).knowledge other).lastVersion =
          some version ∨
        system.incoming event = some (other, .upgrade version)) ∧
    (∀ version, (worker.knowledge other).lastAck = some version →
      ((system.workers event.worker).knowledge other).lastAck = some version ∨
        system.incoming event = some (other, .ackUpgrade version)) := by
  by_cases dropped : rescale.Upgraded worker ∧ other ∉ rescale.new
  · have absent : other ∉ worker.distributor.remotes := fun client =>
      dropped.2 ((step.after.upgraded_clients dropped.1 other).mp client).1
    have unknown : worker.knowledge other = ⟨none, none⟩ := by
      simp [Worker.knowledge, Remotes.knowledge, Remotes.lastVersion,
        Remotes.lastAck, IndexMap.get?_eq_none.mpr absent]
    simp [unknown]
  · have kept : rescale.Upgraded worker → other ∈ rescale.new :=
      fun upgraded => not_not.mp fun leaves => dropped ⟨upgraded, leaves⟩
    rw [step.knowledge other kept]
    cases incomingEquation : system.incoming event with
    | none => exact ⟨fun _ => .inl, fun _ => .inl⟩
    | some arrived =>
        obtain ⟨remote, message⟩ := arrived
        by_cases same : remote = other
        · subst same
          cases message <;>
            simp_all [Knowledge.told, Knowledge.learn]
        · simp only [Knowledge.told, same, if_false]
          exact ⟨fun _ => .inl, fun _ => .inl⟩

/-- A step of a rescale adds nothing of a later version. -/
theorem Rescale.Step.stale (step : rescale.Step job system event worker outgoing)
    (stale : Stale (some rescale.version) system) :
    Stale (some rescale.version)
      (system.moved event.worker (system.incoming event) worker outgoing) := by
  have onLink {source : WorkerId} {message : NetworkMessage K V T}
      (found : system.incoming event = some (source, message)) :
      message ∈ system.links source event.worker :=
    List.mem_of_head? (step.head _ found).2
  refine ⟨?_, ?_, ?_⟩
  · intro who other version known
    rw [System.moved_worker] at known
    split at known
    next =>
      rcases (step.learns other).1 version known with before | now
      · exact stale.lastVersion _ other version before
      · exact stale.linked _ _ version (.inl (onLink now))
    next => exact stale.lastVersion who other version known
  · intro who other version known
    rw [System.moved_worker] at known
    split at known
    next =>
      rcases (step.learns other).2 version known with before | now
      · exact stale.lastAck _ other version before
      · exact stale.linked _ _ version (.inr (onLink now))
    next => exact stale.lastAck who other version known
  · intro source target version member
    have old (message : NetworkMessage K V T)
        (member : message ∈ if (system.incoming event).map Prod.fst =
            some source ∧ target = event.worker
          then (system.links source target).tail
          else system.links source target) :
        message ∈ system.links source target := by
      split at member
      · exact List.mem_of_mem_tail member
      · exact member
    rw [System.moved_links] at member
    simp only [List.mem_append] at member
    rcases member with (before | now) | (before | now)
    · exact stale.linked source target version (.inl (old _ before))
    · split at now
      · rw [Links.mem_addressedTo] at now
        exact ⟨_, rfl, Nat.le_of_eq (step.sends_upgrade now)⟩
      · simp at now
    · exact stale.linked source target version (.inr (old _ before))
    · split at now
      · rw [Links.mem_addressedTo] at now
        exact stale.linked _ _ version (.inl (onLink (step.sends_ack now)))
      · simp at now

end

/-! ### Between two rescales -/

namespace Rescale

theorem begin_router {rescale : Rescale} {job : Job K V T VO S L}
    {system : System K V T VO S L}
    (running : Running rescale.old rescale.base system) {worker : WorkerId}
    (member : worker ∈ rescale.participants) :
    ((rescale.begin job system).workers worker).distributor.router =
      .normal (rescale.initialRouter worker) := by
  by_cases old : worker ∈ rescale.old
  · simp [begin, old, (running worker old).1, initialRouter, buildSet,
      buildVersion]
  · have new : worker ∈ rescale.new :=
      (mem_participants.mp member).resolve_left old
    simp [begin, old, new, initialRouter, buildSet, buildVersion, Worker.build,
      Distributor.fresh, MessageRouter.new]

theorem begin_shaped {rescale : Rescale} {job : Job K V T VO S L}
    {system : System K V T VO S L}
    (running : Running rescale.old rescale.base system) :
    rescale.Shaped job (rescale.begin job system) := by
  intro worker member
  have phase : ((rescale.begin job system).workers
      worker).distributor.router.phase = .normal (rescale.initialRouter worker) :=
    congrArg MessageRouter.phase (begin_router running member)
  by_cases old : worker ∈ rescale.old
  · refine .waiting phase (by simp [begin, old, Started]) ?_
    simpa [begin, old, buildSet] using (running worker old).2
  · have new : worker ∈ rescale.new :=
      (mem_participants.mp member).resolve_left old
    refine .waiting phase (by simp [begin, old, new, Started, Worker.build]) ?_
    intro other
    simp only [begin, old, new, if_true, if_false, buildSet]
    exact mem_build_remotes

theorem begin_sent {rescale : Rescale} {job : Job K V T VO S L}
    {system : System K V T VO S L} {worker : WorkerId}
    (member : worker ∈ rescale.participants) :
    ((rescale.begin job system).workers worker).sent = [] := by
  by_cases old : worker ∈ rescale.old
  · simp [begin, old]
  · have new : worker ∈ rescale.new :=
      (mem_participants.mp member).resolve_left old
    simp [begin, old, new, Worker.build]

/-- A link without the handshake of this version tells nothing of it. -/
theorem unlearned {rescale : Rescale} {partitioner : WorkerPartitioner K}
    {target : WorkerId} {knowledge : Knowledge}
    {link : List (NetworkMessage K V T)}
    (noVersion : knowledge.lastVersion ≠ some rescale.version)
    (noAck : knowledge.lastAck ≠ some rescale.version)
    (noUpgrade : .upgrade rescale.version ∉ link)
    (noAckUpgrade : .ackUpgrade rescale.version ∉ link) :
    (viewAfter Knowledge.learn knowledge link).lastVersion ≠
        some rescale.version ∧
      (viewAfter Knowledge.learn knowledge link).lastAck ≠
        some rescale.version ∧
      rescale.LinkProper partitioner target knowledge link := by
  induction link generalizing knowledge with
  | nil => exact ⟨noVersion, noAck, trivial⟩
  | cons message rest ih =>
      simp only [List.mem_cons, not_or] at noUpgrade noAckUpgrade
      have learned : (knowledge.learn message).lastVersion ≠
            some rescale.version ∧
          (knowledge.learn message).lastAck ≠ some rescale.version := by
        cases message <;> simp_all [Knowledge.learn, eq_comm]
      obtain ⟨version, ack, proper⟩ :=
        ih learned.1 learned.2 noUpgrade.2 noAckUpgrade.2
      refine ⟨version, ack, ?_, proper⟩
      cases message with
      | data _ => exact fun known => absurd known noVersion
      | acquire _ => exact noVersion
      | upgrade _ => exact fun known => absurd known noVersion
      | ackUpgrade _ => exact fun known => absurd known noAck
      | epoch _ => trivial
      | barrierMarker => trivial
      | suspendMarker => trivial

theorem begin_shaken {rescale : Rescale} {job : Job K V T VO S L}
    {system : System K V T VO S L} {configVersion : Option Version}
    (stale : Stale configVersion system)
    (later : ∀ version ∈ configVersion, version < rescale.version) :
    rescale.Shaken job (rescale.begin job system) := by
  intro source target different sourceMember targetMember _
  have notPast : ¬Past configVersion rescale.version := by
    rintro ⟨last, member, atMost⟩
    exact absurd (later last member) (Nat.not_lt.mpr atMost)
  have begun : Stale configVersion (rescale.begin job system) :=
    stale.begin rescale
  obtain ⟨noVersion, noAck, proper⟩ := unlearned
    (fun known => notPast (begun.lastVersion target source _ known))
    (fun known => notPast (begun.lastAck target source _ known))
    (fun member => notPast (begun.linked source target _ (.inl member)))
    (fun member => notPast (begun.linked source target _ (.inr member)))
  have sent : ((rescale.begin job system).workers source).sent = [] :=
    begin_sent sourceMember
  exact {
    announced := fun known => absurd known noVersion
    recorded := fun known => absurd known noAck
    proper := proper
    delivered := fun acquire member => by simp [sent] at member
    ordered := ⟨_, fun member =>
      notPast (begun.linked source target _ (.inl member)), by simp [sent]⟩
    behind := fun known =>
      absurd (begun.lastVersion target source _ known) notPast }

end Rescale

/-- Between two rescales the workers of the current set run with it, and all
of the handshake belongs to the past. -/
theorem Settled.running [DecidableEq K] [MaybeTime T] {job : Job K V T VO S L}
    {admissible : IndexSet WorkerId → Prop}
    {allowed : Rescale → System K V T VO S L → Event K V T → Prop}
    (permits : ∀ rescale system event, allowed rescale system event →
      rescale.Permits system event)
    {workers : IndexSet WorkerId} {configVersion : Option Version}
    {system : System K V T VO S L}
    (settled : Settled job admissible allowed workers configVersion system) :
    Running workers (configVersion.getD 0) system ∧
      Stale configVersion system := by
  induction settled with
  | start _ => exact ⟨Running.initial job _, Stale.initial job _⟩
  | @rescaled _ _ settled final rescale _ continues _ run completed ih =>
      obtain ⟨running, stale⟩ := ih
      obtain ⟨rfl, baseEquation, later⟩ := continues
      rw [← baseEquation] at running
      obtain ⟨shaped, stale⟩ := Rescale.run_invariant (Stale (some rescale.version))
        (Rescale.begin_shaped running) ((stale.begin rescale).later later)
        (permits rescale)
        (fun _ _ _ _ _ stale _ step => step.stale stale) run
      refine ⟨fun worker member => ?_, stale⟩
      have participates : worker ∈ rescale.participants :=
        Rescale.mem_participants.mpr (.inr member)
      have upgraded := completed worker participates
      have shape := shaped worker participates
      refine ⟨?_, shape.upgraded_clients upgraded⟩
      unfold Rescale.Upgraded at upgraded
      cases shape with
      | waiting phase unstarted _ =>
          rw [phase] at upgraded
          exact absurd upgraded unstarted
      | interrogating phase _ _ => simp [phase] at upgraded
      | collecting phase _ _ => simp [phase] at upgraded
      | finished phase _ _ => simp [phase] at upgraded
      | upgraded phase _ _ =>
          cases routerEquation : (final.workers worker).distributor.router with
          | normal router =>
              rw [routerEquation] at phase
              simpa [MessageRouter.phase] using phase
          | interrogate _ => simp [routerEquation, MessageRouter.phase] at phase
          | collect _ => simp [routerEquation, MessageRouter.phase] at phase
          | finished _ => simp [routerEquation, MessageRouter.phase] at phase

/-- A rescale of a settled job keeps every worker in shape and every pair of
workers in the handshake. -/
theorem Settled.shaken [DecidableEq K] [MaybeTime T] {job : Job K V T VO S L}
    {admissible : IndexSet WorkerId → Prop}
    {allowed : Rescale → System K V T VO S L → Event K V T → Prop}
    (permits : ∀ rescale system event, allowed rescale system event →
      rescale.Permits system event)
    {workers : IndexSet WorkerId} {configVersion : Option Version}
    {settled system : System K V T VO S L}
    (history : Settled job admissible allowed workers configVersion settled)
    {rescale : Rescale} (continues : rescale.Continues workers configVersion)
    (run : Reaches (fun state event => state.step job event) (allowed rescale)
      (rescale.begin job settled) system) :
    rescale.Shaped job system ∧ rescale.Shaken job system := by
  obtain ⟨running, stale⟩ := history.running permits
  obtain ⟨rfl, baseEquation, later⟩ := continues
  rw [← baseEquation] at running
  exact Rescale.run_invariant (rescale.Shaken job)
    (Rescale.begin_shaped running) (Rescale.begin_shaken stale later)
    (permits rescale) (fun _ _ _ _ _ shaken _ step => step.shaken shaken) run

end Malstrom.Keyed
