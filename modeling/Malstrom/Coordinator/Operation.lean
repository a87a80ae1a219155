import Malstrom.Coordinator.Standing

namespace Malstrom.Coordinator

open Data

/-! What the coordinator knows of all workers, by what it is doing. -/

inductive Standing where
  | outside
  /-- The state of the worker is inserted anew before anyone asks for it. -/
  | away
  | fresh
  | hears (exchange : Exchange) (heard : List WorkerMessage)
  | leaving

namespace Standing

/-- The states of other workers are `clean` when there are none. -/
def Meets (clean : Prop) (worker : WorkerId) (entry : Option WorkerState)
    (peer : Peer) : Standing → Prop
  | .outside => Away peer ∧ (clean → entry = none)
  | .away => Away peer
  | .fresh => Fresh peer ∧ entry.map WorkerState.phase = some .unknown
  | .hears exchange heard => Hears worker exchange heard entry peer
  | .leaving => ∃ procedure : Procedure, procedure.removes worker = true ∧
      Hears worker (.procedure procedure)
        [procedure.started, procedure.complete] entry peer

section

variable {clean : Prop} {worker : WorkerId} {entry : Option WorkerState}
  {peer next : Peer} {standing : Standing}

theorem Meets.moves (meets : standing.Meets clean worker entry peer)
    (moves : Moves worker peer next) :
    standing.Meets clean worker entry next := by
  cases standing with
  | outside => exact ⟨meets.1.moves moves, meets.2⟩
  | away => exact Away.moves meets moves
  | fresh => exact ⟨meets.1.moves moves, meets.2⟩
  | hears exchange heard => exact Hears.moves meets moves
  | leaving =>
      obtain ⟨procedure, removes, hears⟩ := meets
      exact ⟨procedure, removes, hears.moves moves⟩

theorem Meets.apply (meets : standing.Meets clean worker entry peer)
    {task : Nat} {report : Report} {entry' : Option WorkerState}
    (held : peer.tasks[task]? = some (some report))
    (isEntry : entry'.map WorkerState.phase = report.message.phase?) :
    standing.Meets clean worker entry'
      (peer.applied task report.message) := by
  cases standing with
  | outside =>
      obtain ⟨isLast, away⟩ := meets.1.apply held
      refine ⟨away, fun _ => ?_⟩
      rw [isLast] at isEntry
      simpa [WorkerMessage.phase?] using isEntry
  | away => exact (Away.apply meets held).2
  | fresh => exact absurd held meets.1.not_held
  | hears exchange heard => exact Hears.apply meets held isEntry
  | leaving =>
      obtain ⟨procedure, removes, hears⟩ := meets
      exact ⟨procedure, removes, hears.apply held isEntry⟩

theorem Meets.pending (meets : standing.Meets clean worker entry peer) :
    ∀ report ∈ peer.pending, report.incarnation = peer.setups := by
  have ofAway : Away peer →
      ∀ report ∈ peer.pending, report.incarnation = peer.setups := by
    intro away report member
    obtain ⟨_, none, _⟩ | ⟨_, ⟨_, none⟩ | ⟨_, last⟩⟩ := away.quiet
    · simp [none] at member
    · simp [none] at member
    · rw [last] at member
      rw [List.mem_singleton.mp member]
  cases standing with
  | outside => exact ofAway meets.1
  | away => exact ofAway meets
  | fresh =>
      intro report member
      simp [Peer.pending, meets.1.tasks, meets.1.reports] at member
  | hears exchange heard => exact Hears.pending meets
  | leaving =>
      obtain ⟨procedure, _, hears⟩ := meets
      exact hears.pending

theorem Meets.away (meets : standing.Meets clean worker entry peer)
    (isStanding : standing = .outside ∨ standing = .leaving) : Away peer := by
  obtain rfl | rfl := isStanding
  · exact meets.1
  · obtain ⟨procedure, removes, hears⟩ := meets
    exact hears.leaves removes

end

def settled (active : IndexMap WorkerId Unit) (worker : WorkerId) : Standing :=
  if worker ∈ active then .hears .none [] else .outside

end Standing

def Stage.standing (before : Standing) (exchange : Exchange)
    (heard : List WorkerMessage) : Stage → Standing
  | .send => before
  | .register | .await _ => .hears exchange []
  | .ready => .hears exchange heard

def Performing.heard (procedure : Procedure) : Performing → List WorkerMessage
  | .sending _ | .awaitStarted _ => []
  | .registerRunning | .awaitRunning _ => [procedure.started]
  | .returned => [procedure.started, procedure.complete]

namespace Doing

def standing (active : IndexMap WorkerId Unit) (worker : WorkerId) :
    Doing → Standing
  | .setup _ new rest =>
      if worker ∈ rest then .away
      else if worker ∈ new then .fresh else .settled active worker
  | .reset _ new _ =>
      if worker ∈ new then .fresh else .settled active worker
  | .build _ new stages =>
      if worker ∈ new then
        (stages worker).standing .fresh .build [.buildComplete]
      else .settled active worker
  | .execution _ new stages =>
      if worker ∈ new then
        (stages worker).standing (.hears .build [.buildComplete]) .execution
          [.executionStarted]
      else .settled active worker
  | .perform procedure performing =>
      if worker ∈ active then
        if worker ∈ performing.untold then .hears .none []
        else .hears (.procedure procedure) (performing.heard procedure)
      else .outside
  | .serialize version | .commit version _ =>
      if worker ∈ active then
        .hears (.procedure (.snapshot version))
          [.snapshotStarted, .snapshotComplete version]
      else .outside
  | .tidy _ rest =>
      if worker ∈ active then
        if worker ∈ rest then .leaving else .hears .none []
      else .outside
  | .watch | .idle | .finish | .finished => .settled active worker

section

variable {active : IndexMap WorkerId Unit} {worker : WorkerId}
  {procedure : Procedure} {performing : Performing}

theorem standing_untold (member : worker ∈ active)
    (untold : worker ∈ performing.untold) :
    (Doing.perform procedure performing).standing active worker =
      .hears .none [] := by
  simp only [standing, if_pos member, if_pos untold]

theorem standing_told (member : worker ∈ active)
    (told : worker ∉ performing.untold) :
    (Doing.perform procedure performing).standing active worker =
      .hears (.procedure procedure) (performing.heard procedure) := by
  simp only [standing, if_pos member, if_neg told]

theorem standing_outside (other : worker ∉ active) :
    (Doing.perform procedure performing).standing active worker = .outside := by
  simp only [standing, if_neg other]

end

def Lists (clean : Prop) (active : IndexMap WorkerId Unit) : Doing → Prop
  | .setup _ new rest => rest.Nodup ∧ ∀ worker ∈ rest, worker ∈ new
  | .reset _ new rest => ∀ worker ∈ rest, worker ∈ new
  | .build _ new _ | .execution _ new _ => ∀ worker ∈ new, worker ∈ active
  | .perform _ performing => performing.untold.Nodup ∧
      ∀ worker ∈ performing.untold, worker ∈ active
  | .commit _ state => clean →
      ∀ worker ∈ state.workerStates, worker ∈ state.activeWorkers
  | .watch | .idle | .serialize _ | .tidy _ _ | .finish | .finished => True

/-- The coordinator waits for a condition, upon which it knows that these
workers have sent more. -/
inductive Asks (active : IndexMap WorkerId Unit) : Doing → Nat →
    (List (WorkerId × WorkerState) → Bool) → (WorkerId → Prop) → Exchange →
      List WorkerMessage → Prop
  | built {start : Start} {new : List WorkerId} {stages : WorkerId → Stage}
      {worker : WorkerId} {receiver : Nat} (member : worker ∈ new)
      (waits : stages worker = .await receiver) :
      Asks active (.build start new stages) receiver
        (onePhase worker .buildComplete) (· = worker) .build [.buildComplete]
  | executing {start : Start} {new : List WorkerId} {stages : WorkerId → Stage}
      {worker : WorkerId} {receiver : Nat} (member : worker ∈ new)
      (waits : stages worker = .await receiver) :
      Asks active (.execution start new stages) receiver
        (onePhase worker .running) (· = worker) .execution [.executionStarted]
  | started {procedure : Procedure} {receiver : Nat} :
      Asks active (.perform procedure (.awaitStarted receiver)) receiver
        (allPhase procedure.phase) (· ∈ active) (.procedure procedure)
        [procedure.started]
  | complete {procedure : Procedure} {receiver : Nat} :
      Asks active (.perform procedure (.awaitRunning receiver)) receiver
        (allPhase .running) (· ∈ active) (.procedure procedure)
        [procedure.started, procedure.complete]

end Doing

theorem phase_of_onePhase {store : IndexMap WorkerId WorkerState}
    {worker : WorkerId} {phase : WorkerPhase}
    (holds : onePhase worker phase store.entries = true) :
    (store.get? worker).map WorkerState.phase = some phase := by
  obtain ⟨⟨key, state⟩, member, matching⟩ := List.any_eq_true.mp holds
  obtain ⟨rfl, rfl⟩ : key = worker ∧ state.phase = phase := by
    simpa using matching
  rw [IndexMap.get?_eq_some.mpr member]
  rfl

theorem phase_of_allPhase {store : IndexMap WorkerId WorkerState}
    {phase : WorkerPhase} (holds : allPhase phase store.entries = true)
    (worker : WorkerId) :
    store.get? worker = none ∨
      (store.get? worker).map WorkerState.phase = some phase := by
  cases isEntry : store.get? worker with
  | none => exact .inl rfl
  | some state =>
      have matching := List.all_eq_true.mp holds _
        (IndexMap.get?_eq_some.mp isEntry)
      exact .inr (congrArg some (of_decide_eq_true matching))

namespace Job

/-- A condition the coordinator waits for was met, or will be noticed. -/
def Answered (job : Job) (receiver : Nat)
    (condition : List (WorkerId × WorkerState) → Bool) (who : WorkerId → Prop)
    (exchange : Exchange) (heard : List WorkerMessage) : Prop :=
  (receiver ∈ job.states.completed → ∀ worker, who worker →
    Hears worker exchange heard (job.states.store.get? worker)
      (job.peers worker)) ∧
  (receiver ∉ job.states.completed → job.states.Pends receiver condition)

def Meets (clean : Prop) (job : Job) (worker : WorkerId)
    (standing : Standing) : Prop :=
  standing.Meets clean worker (job.states.store.get? worker) (job.peers worker)

structure Known (clean : Prop) (job : Job) : Prop where
  meets : ∀ worker,
    job.Meets clean worker (job.doing.standing job.activeWorkers worker)
  lists : job.doing.Lists clean job.activeWorkers
  answered : ∀ {receiver condition who exchange heard},
    Doing.Asks job.activeWorkers job.doing receiver condition who exchange
      heard → job.Answered receiver condition who exchange heard
  committed : clean → ∀ commit ∈ job.committed,
    ∀ worker ∈ commit.2.workerStates, worker ∈ commit.2.activeWorkers

section

variable {clean : Prop} {job : Job} {worker : WorkerId} {receiver : Nat}
  {condition : List (WorkerId × WorkerState) → Bool} {who : WorkerId → Prop}
  {exchange : Exchange} {heard : List WorkerMessage}

theorem hears_of_condition
    (meets : ∀ worker,
      job.Meets clean worker (job.doing.standing job.activeWorkers worker))
    (asks : Doing.Asks job.activeWorkers job.doing receiver condition who
      exchange heard)
    (holds : condition job.states.store.entries = true) :
    ∀ worker, who worker → Hears worker exchange heard
      (job.states.store.get? worker) (job.peers worker) := by
  intro worker member
  have standing := meets worker
  generalize job.doing = doing at standing asks
  cases asks with
  | built isNew waits =>
      subst member
      simp only [Doing.standing, if_pos isNew, waits,
        Stage.standing] at standing
      exact Hears.built standing (phase_of_onePhase holds)
  | executing isNew waits =>
      subst member
      simp only [Doing.standing, if_pos isNew, waits,
        Stage.standing] at standing
      exact Hears.executing standing (phase_of_onePhase holds)
  | started =>
      simp only [Doing.standing, if_pos member, Performing.untold,
        List.not_mem_nil, if_false, Performing.heard] at standing
      exact Hears.started standing (phase_of_allPhase holds worker)
  | complete =>
      simp only [Doing.standing, if_pos member, Performing.untold,
        List.not_mem_nil, if_false, Performing.heard] at standing
      exact Hears.complete standing (phase_of_allPhase holds worker)

theorem Known.moves (known : Known clean job) {next : Peer}
    (moves : Moves worker (job.peers worker) next) :
    Known clean (job.setPeer worker next) where
  meets := by
    intro other
    have standing := known.meets other
    unfold Job.Meets at standing ⊢
    by_cases same : other = worker
    · subst same
      simpa [setPeer] using standing.moves moves
    · simpa [setPeer, Function.update_of_ne same] using standing
  lists := known.lists
  answered := by
    intro receiver condition who exchange heard asks
    obtain ⟨answer, pends⟩ := known.answered asks
    refine ⟨fun done other member => ?_, pends⟩
    have hears := answer done other member
    by_cases same : other = worker
    · subst same
      simpa [setPeer] using hears.moves moves
    · simpa [setPeer, Function.update_of_ne same] using hears
  committed := known.committed

theorem Known.apply (known : Known clean job) {task : Nat} {report : Report}
    (held : (job.peers worker).tasks[task]? = some (some report)) :
    Known clean ({ job with
      states := workerCommInbound job.states worker report.message
    }.setPeer worker ((job.peers worker).applied task report.message)) := by
  have isEntry := phase_workerCommInbound job.states worker report.message
  obtain ⟨store, isChange, others⟩ :=
    workerCommInbound_change job.states worker report.message
  rw [isChange] at isEntry ⊢
  have meets : ∀ other, Job.Meets clean
      ({ job with states := job.states.change store }.setPeer worker
        ((job.peers worker).applied task report.message)) other
      (job.doing.standing job.activeWorkers other) := by
    intro other
    have standing := known.meets other
    unfold Job.Meets at standing ⊢
    by_cases same : other = worker
    · subst same
      simpa [setPeer] using standing.apply held isEntry
    · simpa [setPeer, Function.update_of_ne same, others other same] using
        standing
  refine ⟨meets, known.lists, ?_, known.committed⟩
  intro receiver condition who exchange heard asks
  obtain ⟨answer, pends⟩ := known.answered asks
  refine ⟨fun done => ?_, fun waits => ?_⟩
  · by_cases before : receiver ∈ job.states.completed
    · intro other member
      have hears := answer before other member
      by_cases same : other = worker
      · subst same
        simpa [setPeer] using hears.apply held isEntry
      · simpa [setPeer, Function.update_of_ne same, others other same] using
          hears
    · exact hears_of_condition meets asks
        ((pends before).completed_change.mp done)
  · have before : receiver ∉ job.states.completed := fun done =>
      waits (WatchMap.completed_change.mpr (.inl done))
    have changed : if condition store.entries = true then
        receiver ∈ (job.states.change store).completed
        else (job.states.change store).Pends receiver condition :=
      ((pends before).change _)
    split at changed
    next => exact absurd changed waits
    next => exact changed

theorem Known.turn (known : Known clean job) {next : Job}
    (store : next.states.store = job.states.store)
    (peers : next.peers = job.peers)
    (committed : next.committed = job.committed)
    (stands : ∀ worker,
      job.Meets clean worker (job.doing.standing job.activeWorkers worker) →
      job.Meets clean worker (next.doing.standing next.activeWorkers worker))
    (lists : next.doing.Lists clean next.activeWorkers)
    (silent : ∀ {receiver condition who exchange heard},
      ¬ Doing.Asks next.activeWorkers next.doing receiver condition who
        exchange heard) : Known clean next where
  meets := by
    intro worker
    unfold Job.Meets
    rw [store, peers]
    exact stands worker (known.meets worker)
  lists := lists
  answered := fun asks => absurd asks silent
  committed := by
    rw [committed]
    exact known.committed

theorem Known.setupComm (known : Known clean job) {start : Start}
    {new rest : List WorkerId}
    (isDoing : job.doing = .setup start new (worker :: rest))
    (separate : (job.peers worker).tasks = []) :
    Known clean
      { job.setupComm worker with doing := .setup start new rest } where
  meets := by
    intro other
    have standing := known.meets other
    have lists := known.lists
    rw [isDoing] at standing lists
    simp only [Doing.Lists, List.nodup_cons, List.mem_cons] at lists
    simp only [Job.Meets, Doing.standing, List.mem_cons] at standing ⊢
    by_cases same : other = worker
    · subst same
      rw [if_neg lists.1.1, if_pos (lists.2 _ (.inl rfl))]
      rw [if_pos (.inl rfl)] at standing
      simp only [Job.setupComm, setPeer, Function.update_self]
      refine ⟨Away.setup standing separate, ?_⟩
      simp [WatchMap.insert, IndexMap.get?_insert_self]
    · simpa [same, Job.setupComm, setPeer, WatchMap.insert,
        IndexMap.get?_insert_of_ne _ _ same, Function.update_of_ne same] using
        standing
  lists := by
    have lists := known.lists
    rw [isDoing] at lists
    exact ⟨lists.1.of_cons,
      fun other member => lists.2 other (List.mem_cons_of_mem _ member)⟩
  answered := by
    intro receiver condition who exchange heard asks
    cases asks
  committed := known.committed

theorem mem_addActive {new : List WorkerId} :
    worker ∈ (job.addActive new).activeWorkers ↔
      worker ∈ job.activeWorkers ∨ worker ∈ new := by
  unfold addActive
  generalize job.activeWorkers = active
  induction new generalizing active with
  | nil => simp
  | cons first rest induction =>
      simp only [List.foldl_cons] at induction ⊢
      rw [induction, IndexMap.mem_insert, List.mem_cons]
      tauto

theorem settled_addActive {new : List WorkerId} (old : worker ∉ new) :
    Standing.settled (job.addActive new).activeWorkers worker =
      .settled job.activeWorkers worker := by
  unfold Standing.settled
  simp only [mem_addActive, old, or_false]

theorem Known.reset (known : Known clean job) {config : IndexSet WorkerId}
    {new rest : List WorkerId}
    (isDoing : job.doing = .reset config new (worker :: rest)) :
    Known clean { job with
      states := job.states.insert worker {}
      doing := .reset config new rest } where
  meets := by
    intro other
    have standing := known.meets other
    have lists := known.lists
    rw [isDoing] at standing lists
    simp only [Job.Meets, Doing.standing] at standing ⊢
    by_cases same : other = worker
    · subst same
      rw [if_pos (lists other List.mem_cons_self)] at standing ⊢
      exact ⟨standing.1, by simp [WatchMap.insert, IndexMap.get?_insert_self]⟩
    · simpa [WatchMap.insert, IndexMap.get?_insert_of_ne _ _ same] using
        standing
  lists := by
    have lists := known.lists
    rw [isDoing] at lists
    exact fun other member => lists other (List.mem_cons_of_mem _ member)
  answered := by
    intro receiver condition who exchange heard asks
    cases asks
  committed := known.committed

theorem Known.beginBuild (known : Known clean job) {start : Start}
    {new : List WorkerId}
    (isStanding : ∀ worker, job.doing.standing job.activeWorkers worker =
      if worker ∈ new then .fresh else .settled job.activeWorkers worker) :
    Known clean { job.addActive new with
      doing := .build start new fun _ => .send } := by
  refine known.turn rfl rfl rfl ?_ ?_ ?_
  · intro worker standing
    rw [isStanding] at standing
    simp only [Doing.standing, Stage.standing]
    split at standing
    next isNew =>
      rw [if_pos isNew]
      exact standing
    next old =>
      rw [if_neg old]
      have same : Standing.settled (job.addActive new).activeWorkers worker =
          .settled job.activeWorkers worker := settled_addActive old
      exact same.symm ▸ standing
  · intro worker member
    exact mem_addActive.mpr (.inr member)
  · intro receiver condition who exchange heard asks
    cases asks with
    | built member waits => cases waits

theorem Known.beginExecution (known : Known clean job) {start : Start}
    {new : List WorkerId} {stages : WorkerId → Stage}
    (isDoing : job.doing = .build start new stages)
    (ready : ∀ worker ∈ new, stages worker = .ready) :
    Known clean { job with doing := .execution start new fun _ => .send } := by
  have lists := known.lists
  refine known.turn rfl rfl rfl ?_ ?_ ?_
  · intro worker standing
    rw [isDoing] at standing
    simp only [Doing.standing, Stage.standing] at standing ⊢
    split at standing
    next isNew =>
      rw [if_pos isNew]
      rwa [ready worker isNew] at standing
    next old => rwa [if_neg old]
  · rw [isDoing] at lists
    exact lists
  · intro receiver condition who exchange heard asks
    cases asks with
    | executing member waits => cases waits

theorem Known.settle (known : Known clean job) {start : Start}
    {new : List WorkerId} {stages : WorkerId → Stage}
    (isDoing : job.doing = .execution start new stages)
    (ready : ∀ worker ∈ new, stages worker = .ready) (worker : WorkerId) :
    job.Meets clean worker (.settled job.activeWorkers worker) := by
  have standing := known.meets worker
  have lists := known.lists
  rw [isDoing] at standing lists
  simp only [Doing.standing] at standing
  split at standing
  next isNew =>
    rw [ready worker isNew] at standing
    rw [Standing.settled, if_pos (lists worker isNew)]
    exact Hears.idle standing
  next => exact standing

theorem Known.perform (known : Known clean job) {procedure : Procedure}
    (settles : ∀ worker,
      job.Meets clean worker (.settled job.activeWorkers worker)) :
    Known clean (job.perform procedure) := by
  refine known.turn rfl rfl rfl ?_ ?_ ?_
  · intro worker _
    have standing := settles worker
    show job.Meets clean worker (Doing.standing job.activeWorkers worker
      (.perform procedure (.sending job.activeWorkers.keys)))
    unfold Standing.settled at standing
    by_cases member : worker ∈ job.activeWorkers
    · rw [if_pos member] at standing
      have untold : worker ∈
          (Performing.sending job.activeWorkers.keys).untold := member
      rwa [Doing.standing_untold member untold]
    · rw [if_neg member] at standing
      rwa [Doing.standing_outside member]
  · exact ⟨job.activeWorkers.nodup, fun worker member => member⟩
  · intro receiver condition who exchange heard asks
    cases asks

theorem Known.tell (known : Known clean job) {procedure : Procedure}
    {rest : List WorkerId}
    (isDoing : job.doing = .perform procedure (.sending (worker :: rest))) :
    Known clean { job.send worker procedure.command with
      doing := .perform procedure (.sending rest) } where
  meets := by
    intro other
    have standing := known.meets other
    have lists := known.lists
    rw [isDoing] at standing lists
    have told : worker ∉ (Performing.sending rest).untold :=
      (List.nodup_cons.mp lists.1).1
    have member := lists.2 worker List.mem_cons_self
    show ((Doing.perform procedure (.sending rest)).standing job.activeWorkers
      other).Meets clean other (job.states.store.get? other)
      ((job.send worker procedure.command).peers other)
    by_cases same : other = worker
    · subst same
      rw [Doing.standing_untold member List.mem_cons_self] at standing
      rw [Doing.standing_told member told]
      simp only [Job.send, setPeer, Function.update_self]
      exact Hears.askProcedure standing
    · have isPeer : (job.send worker procedure.command).peers other =
          job.peers other := by
        simp only [Job.send, setPeer, Function.update_of_ne same]
      have isStanding :
          (Doing.perform procedure (.sending rest)).standing job.activeWorkers
              other =
            (Doing.perform procedure (.sending (worker :: rest))).standing
              job.activeWorkers other := by
        simp only [Doing.standing, Performing.untold, List.mem_cons, same,
          false_or, Performing.heard]
        congr
      rw [isPeer, isStanding]
      exact standing
  lists := by
    have lists := known.lists
    rw [isDoing] at lists
    exact ⟨lists.1.of_cons,
      fun other member => lists.2 other (List.mem_cons_of_mem _ member)⟩
  answered := by
    intro receiver condition who exchange heard asks
    cases asks
  committed := known.committed

theorem Known.register (known : Known clean job) {procedure : Procedure}
    {performing performing' : Performing}
    (isDoing : job.doing = .perform procedure performing)
    (untold : performing.untold = []) (untold' : performing'.untold = [])
    (heard : performing'.heard procedure = performing.heard procedure)
    (asks : ∀ {receiver other who exchange heard},
      Doing.Asks job.activeWorkers (.perform procedure performing') receiver
        other who exchange heard →
      receiver = (job.states.notify condition).2 ∧ other = condition) :
    Known clean { job with
      states := (job.states.notify condition).1
      doing := .perform procedure performing' } where
  meets := by
    intro worker
    have standing := known.meets worker
    rw [isDoing] at standing
    have isStanding :
        (Doing.perform procedure performing').standing job.activeWorkers
            worker =
          (Doing.perform procedure performing).standing job.activeWorkers
            worker := by
      simp only [Doing.standing, untold, untold', heard]
    exact isStanding ▸ standing
  lists := by simp [Doing.Lists, untold']
  answered := by
    intro receiver other who exchange heard asked
    obtain ⟨rfl, rfl⟩ := asks asked
    exact ⟨fun done => absurd done WatchMap.not_completed_notify,
      fun _ => WatchMap.pends_notify⟩
  committed := known.committed

theorem Known.proceed (known : Known clean job) {procedure : Procedure}
    {performing performing' : Performing}
    (isDoing : job.doing = .perform procedure performing)
    (untold : performing'.untold = [])
    (asks : Doing.Asks job.activeWorkers (.perform procedure performing)
      receiver condition (· ∈ job.activeWorkers) (.procedure procedure)
      (performing'.heard procedure))
    (done : receiver ∈ job.states.completed)
    (silent : ∀ {receiver condition who exchange heard},
      ¬ Doing.Asks job.activeWorkers (.perform procedure performing') receiver
        condition who exchange heard) :
    Known clean { job with doing := .perform procedure performing' } := by
  refine known.turn rfl rfl rfl ?_ ?_ silent
  · intro worker standing
    rw [isDoing] at standing
    have answer := (known.answered (isDoing ▸ asks)).1 done worker
    show job.Meets clean worker (Doing.standing job.activeWorkers worker
      (.perform procedure performing'))
    by_cases member : worker ∈ job.activeWorkers
    · rw [Doing.standing_told member (by simp [untold])]
      exact answer member
    · rw [Doing.standing_outside member] at standing ⊢
      exact standing
  · simp [Doing.Lists, untold]

theorem Known.performs (known : Known clean job) {procedure : Procedure}
    {performing performing' : Performing} {states' : States} {told : Job}
    (isTold : told = match performing with
      | .sending (worker :: _) => job.send worker procedure.command
      | _ => job)
    (isDoing : job.doing = .perform procedure performing)
    (steps : Performing.Steps procedure job.states performing states'
      performing') :
    Known clean { told with
      states := states', doing := .perform procedure performing' } := by
  subst isTold
  cases steps with
  | tell => exact known.tell isDoing
  | awaitStarted =>
      refine known.register isDoing rfl rfl rfl ?_
      intro receiver other who exchange heard asks
      cases asks
      exact ⟨rfl, rfl⟩
  | started done =>
      refine known.proceed isDoing rfl .started done ?_
      intro receiver other who exchange heard asks
      cases asks
  | awaitRunning =>
      refine known.register isDoing rfl rfl rfl ?_
      intro receiver other who exchange heard asks
      cases asks
      exact ⟨rfl, rfl⟩
  | running done =>
      refine known.proceed isDoing rfl .complete done ?_
      intro receiver other who exchange heard asks
      cases asks

theorem Known.forget (known : Known clean job) {version : Version}
    {rest : List WorkerId}
    (isDoing : job.doing = .tidy version (worker :: rest)) :
    Known clean { job with
      states := job.states.remove worker
      activeWorkers := job.activeWorkers.swapRemove worker
      doing := .tidy version rest } where
  meets := by
    intro other
    have standing := known.meets other
    rw [isDoing] at standing
    show ((Doing.tidy version rest).standing
      (job.activeWorkers.swapRemove worker) other).Meets clean other
        ((job.states.store.swapRemove worker).get? other) (job.peers other)
    simp only [Job.Meets, Doing.standing, List.mem_cons] at standing
    simp only [Doing.standing, IndexMap.mem_swapRemove,
      IndexMap.get?_swapRemove]
    by_cases same : other = worker
    · subst same
      simp only [ne_eq, not_true_eq_false, and_false, if_false, if_true]
      refine ⟨standing.away ?_, fun _ => rfl⟩
      simp only [true_or, if_true]
      split
      next => exact .inr rfl
      next => exact .inl rfl
    · simp only [same, false_or] at standing
      simpa only [same, ne_eq, not_false_eq_true, and_true, if_false] using
        standing
  lists := trivial
  answered := by
    intro receiver condition who exchange heard asks
    cases asks
  committed := known.committed

theorem Known.through (known : Known clean job) {procedure : Procedure}
    (isDoing : job.doing = .perform procedure .returned) (worker : WorkerId) :
    job.Meets clean worker (if worker ∈ job.activeWorkers then
      .hears (.procedure procedure) [procedure.started, procedure.complete]
      else .outside) := by
  have standing := known.meets worker
  rw [isDoing] at standing
  split
  next member =>
    have told : worker ∉ Performing.returned.untold := List.not_mem_nil
    rwa [Doing.standing_told member told] at standing
  next other => rwa [Doing.standing_outside other] at standing

theorem Known.beginTidy (known : Known clean job)
    {config : IndexSet WorkerId} {version : Version}
    (isDoing : job.doing = .perform (.reconfig config version) .returned) :
    Known clean { job with
      doing := .tidy version (job.activeWorkers.keys.filter fun worker =>
        decide (worker ∉ config)) } := by
  refine known.turn rfl rfl rfl ?_ trivial ?_
  · intro worker _
    have standing := known.through isDoing worker
    simp only [Doing.standing, List.mem_filter, decide_eq_true_eq]
    split at standing
    next member =>
      have isKey : worker ∈ job.activeWorkers.keys := member
      simp only [isKey, true_and, if_pos member]
      by_cases stays : worker ∈ config
      · rw [if_neg (fun goes => goes stays)]
        refine Hears.stays standing ?_
        simp [Procedure.removes, stays]
      · rw [if_pos stays]
        exact ⟨_, by simp [Procedure.removes, stays], standing⟩
    next other => rwa [if_neg other]
  · intro receiver condition who exchange heard asks
    cases asks

theorem Known.serialize (known : Known clean job) {version : SnapshotVersion}
    (isDoing : job.doing = .serialize version) :
    Known clean { job with
      doing := .commit version
        { workerStates := job.states.store
          activeWorkers := job.activeWorkers.keySet
          configVersion := job.configVersion } } := by
  refine known.turn rfl rfl rfl ?_ ?_ ?_
  · intro worker standing
    rwa [isDoing] at standing
  · intro isClean worker isEntry
    by_contra other
    have standing := known.meets worker
    have isOther : worker ∉ job.activeWorkers := other
    rw [isDoing] at standing
    simp only [Doing.standing, if_neg isOther] at standing
    exact IndexMap.get?_eq_none.mp (standing.2 isClean) isEntry
  · intro receiver condition who exchange heard asks
    cases asks

theorem Known.commit (known : Known clean job) {version : SnapshotVersion}
    {state : SerializableCoordinatorState}
    (isDoing : job.doing = .commit version state) :
    Known clean { job with
      committed := job.committed ++ [(version, state)]
      snapshotVersion := some version
      doing := .finish } where
  meets := by
    intro worker
    have standing := known.meets worker
    rw [isDoing] at standing
    simp only [Job.Meets, Doing.standing, Standing.settled] at standing ⊢
    split at standing
    next member =>
      rw [if_pos member]
      exact Hears.stays standing rfl
    next other => rwa [if_neg other]
  lists := trivial
  answered := by
    intro receiver condition who exchange heard asks
    cases asks
  committed := by
    intro isClean commit member
    have lists := known.lists
    rw [isDoing] at lists
    cases List.mem_append.mp member with
    | inl earlier => exact known.committed isClean commit earlier
    | inr last =>
        obtain rfl := List.mem_singleton.mp last
        exact lists isClean

theorem Known.rest (known : Known clean job) {next : Job}
    (store : next.states.store = job.states.store)
    (peers : next.peers = job.peers)
    (committed : next.committed = job.committed)
    (active : next.activeWorkers = job.activeWorkers)
    (settles : ∀ worker,
      job.Meets clean worker (.settled job.activeWorkers worker))
    (isNext : next.doing = .watch ∨ next.doing = .idle ∨
      next.doing = .finish ∨ next.doing = .finished) : Known clean next := by
  refine known.turn store peers committed ?_ ?_ ?_
  · intro worker _
    rw [active]
    obtain isNext | isNext | isNext | isNext := isNext <;> rw [isNext] <;>
      exact settles worker
  · obtain isNext | isNext | isNext | isNext := isNext <;> rw [isNext] <;>
      trivial
  · intro receiver condition who exchange heard asks
    obtain isNext | isNext | isNext | isNext := isNext <;>
      rw [isNext] at asks <;> cases asks

theorem Known.settles (known : Known clean job)
    (isDoing : job.doing = .watch ∨ job.doing = .idle ∨ job.doing = .finish ∨
      job.doing = .finished) (worker : WorkerId) :
    job.Meets clean worker (.settled job.activeWorkers worker) := by
  have standing := known.meets worker
  obtain isDoing | isDoing | isDoing | isDoing := isDoing <;>
    rwa [isDoing] at standing

theorem Known.coordinate (known : Known clean job)
    (separate : job.separate .coordinate) {next : Job}
    (stepped : job.coordinate? = some next) : Known clean next := by
  unfold coordinate? at stepped
  unfold Job.separate at separate
  cases isDoing : job.doing with
  | setup start new rest =>
      simp only [isDoing] at stepped separate
      cases rest with
      | cons worker rest =>
          obtain rfl := Option.some.inj stepped
          exact known.setupComm isDoing separate
      | nil =>
          have isStanding : ∀ worker,
              job.doing.standing job.activeWorkers worker =
                if worker ∈ new then .fresh
                else .settled job.activeWorkers worker := by
            intro worker
            rw [isDoing]
            simp [Doing.standing]
          cases start with
          | boot resume =>
              obtain rfl := Option.some.inj stepped
              exact known.beginBuild isStanding
          | rescale config =>
              obtain rfl := Option.some.inj stepped
              refine known.turn rfl rfl rfl ?_ (fun _ => id) ?_
              · intro worker standing
                rwa [isStanding] at standing
              · intro receiver condition who exchange heard asks
                cases asks
  | reset config new rest =>
      simp only [isDoing] at stepped
      cases rest with
      | cons worker rest =>
          obtain rfl := Option.some.inj stepped
          exact known.reset isDoing
      | nil =>
          obtain rfl := Option.some.inj stepped
          refine known.beginBuild fun worker => ?_
          rw [isDoing]
          rfl
  | build start new stages =>
      simp only [isDoing] at stepped
      split at stepped
      next ready =>
        obtain rfl := Option.some.inj stepped
        exact known.beginExecution isDoing ready
      next => cases stepped
  | execution start new stages =>
      simp only [isDoing] at stepped
      split at stepped
      next ready =>
        have settles := known.settle isDoing ready
        cases start with
        | boot resume =>
            obtain rfl := Option.some.inj stepped
            exact known.rest rfl rfl rfl rfl settles (.inl rfl)
        | rescale config =>
            obtain rfl := Option.some.inj stepped
            exact known.perform settles
      next => cases stepped
  | watch =>
      simp only [isDoing] at stepped
      obtain rfl := Option.some.inj stepped
      exact known.rest rfl rfl rfl rfl (known.settles (.inl isDoing))
        (.inr (.inl rfl))
  | idle =>
      simp only [isDoing] at stepped
      split at stepped
      next =>
        obtain rfl := Option.some.inj stepped
        exact known.rest rfl rfl rfl rfl (known.settles (.inr (.inl isDoing)))
          (.inr (.inr (.inr rfl)))
      next => cases stepped
  | perform procedure performing =>
      simp only [isDoing] at stepped
      have performs : ∀ {next : Job}, ((performing.step? procedure
          job.states).map fun turned =>
            let told := match performing with
              | .sending (worker :: _) => job.send worker procedure.command
              | _ => job
            { told with
              states := turned.1
              doing := .perform procedure turned.2 }) = some next →
          Known clean next := by
        intro next performed
        obtain ⟨⟨states', performing'⟩, isStep, rfl⟩ :=
          Option.map_eq_some_iff.mp performed
        exact known.performs rfl isDoing (Performing.steps_of_step? isStep)
      cases performing with
      | returned =>
          cases procedure with
          | snapshot version =>
              obtain rfl := Option.some.inj stepped
              refine known.turn rfl rfl rfl ?_ trivial ?_
              · intro worker _
                exact known.through isDoing worker
              · intro receiver condition who exchange heard asks
                cases asks
          | reconfig config version =>
              obtain rfl := Option.some.inj stepped
              exact known.beginTidy isDoing
      | sending rest | awaitStarted receiver | registerRunning
      | awaitRunning receiver =>
          refine performs ?_
          cases procedure <;> exact stepped
  | serialize version =>
      simp only [isDoing] at stepped
      obtain rfl := Option.some.inj stepped
      exact known.serialize isDoing
  | commit version state =>
      simp only [isDoing] at stepped
      obtain rfl := Option.some.inj stepped
      exact known.commit isDoing
  | tidy version rest =>
      simp only [isDoing] at stepped
      cases rest with
      | cons worker rest =>
          obtain rfl := Option.some.inj stepped
          exact known.forget isDoing
      | nil =>
          obtain rfl := Option.some.inj stepped
          refine known.rest rfl rfl rfl rfl ?_ (.inr (.inr (.inl rfl)))
          intro worker
          have standing := known.meets worker
          rw [isDoing] at standing
          simpa [Doing.standing, Standing.settled] using standing
  | finish =>
      simp only [isDoing] at stepped
      obtain rfl := Option.some.inj stepped
      refine known.rest rfl rfl rfl rfl
        (known.settles (.inr (.inr (.inl isDoing)))) ?_
      show (if _ then Doing.finished else .idle) = _ ∨ _
      split
      next => exact .inr (.inr (.inr rfl))
      next => exact .inr (.inl rfl)
  | finished =>
      simp only [isDoing] at stepped
      cases stepped

/-- Workers are started together; `doing` says how far each has come. -/
structure Starting (clean : Prop) (doing : (WorkerId → Stage) → Doing)
    (new : List WorkerId) (before : Standing) (message : CoordinationMessage)
    (exchange : Exchange) (phase : WorkerPhase) (heard : List WorkerMessage) :
    Prop where
  standing : ∀ active worker stages, (doing stages).standing active worker =
    if worker ∈ new then (stages worker).standing before exchange heard
    else .settled active worker
  lists : ∀ active stages, (doing stages).Lists clean active ↔
    ∀ worker ∈ new, worker ∈ active
  asks : ∀ {active stages receiver condition who exchange' heard'},
    Doing.Asks active (doing stages) receiver condition who exchange' heard' ↔
      ∃ worker ∈ new, stages worker = .await receiver ∧
        condition = onePhase worker phase ∧ who = (· = worker) ∧
        exchange' = exchange ∧ heard' = heard
  sends : ∀ {worker entry peer}, before.Meets clean worker entry peer →
    Hears worker exchange [] entry
      { peer with commands := peer.commands ++ [message] }

theorem Known.polled (known : Known clean job)
    {doing : (WorkerId → Stage) → Doing} {new : List WorkerId}
    {before : Standing} {message : CoordinationMessage} {phase : WorkerPhase}
    {stages : WorkerId → Stage} {next : Job} {stage : Stage}
    (starting : Starting clean doing new before message exchange phase heard)
    (isDoing : job.doing = doing stages) (isNew : worker ∈ new)
    (isNext : next.doing = doing (Function.update stages worker stage))
    (store : next.states.store = job.states.store)
    (active : next.activeWorkers = job.activeWorkers)
    (committed : next.committed = job.committed)
    (peers : ∀ other, other ≠ worker → next.peers other = job.peers other)
    (meets : next.Meets clean worker (stage.standing before exchange heard))
    (keeps : ∀ {receiver condition}, receiver ∉ job.states.completed →
      job.states.Pends receiver condition →
      next.states.Pends receiver condition)
    (completed : next.states.completed = job.states.completed)
    (waits : ∀ {receiver}, stage = .await receiver →
      receiver ∉ next.states.completed ∧
        next.states.Pends receiver (onePhase worker phase)) :
    Known clean next where
  meets := by
    intro other
    rw [isNext, starting.standing]
    by_cases same : other = worker
    · subst same
      rw [if_pos isNew, Function.update_self]
      exact meets
    · have standing := known.meets other
      rw [isDoing, starting.standing] at standing
      unfold Job.Meets at standing ⊢
      rw [Function.update_of_ne same, store, active, peers other same]
      exact standing
  lists := by
    have lists := known.lists
    rw [isDoing, starting.lists] at lists
    rw [isNext, starting.lists, active]
    exact lists
  answered := by
    intro receiver condition who exchange' heard' asks
    rw [isNext, starting.asks] at asks
    obtain ⟨other, isOther, awaits, rfl, rfl, rfl, rfl⟩ := asks
    by_cases same : other = worker
    · subst same
      rw [Function.update_self] at awaits
      obtain ⟨open', pends⟩ := waits awaits
      exact ⟨fun done => absurd done open', fun _ => pends⟩
    · rw [Function.update_of_ne same] at awaits
      have asked : Doing.Asks job.activeWorkers job.doing receiver
          (onePhase other phase) (· = other) exchange' heard' := by
        rw [isDoing, starting.asks]
        exact ⟨other, isOther, awaits, rfl, rfl, rfl, rfl⟩
      obtain ⟨answer, pends⟩ := known.answered asked
      rw [Answered, completed]
      refine ⟨fun done who isWho => ?_, fun waits => keeps waits (pends waits)⟩
      subst isWho
      rw [store, peers who same]
      exact answer done who rfl
  committed := by
    rw [committed]
    exact known.committed

theorem Known.pollStage (known : Known clean job)
    {doing : (WorkerId → Stage) → Doing} {new : List WorkerId}
    {before : Standing} {message : CoordinationMessage} {phase : WorkerPhase}
    {stages : WorkerId → Stage}
    (starting : Starting clean doing new before message exchange phase heard)
    (isDoing : job.doing = doing stages) (isNew : worker ∈ new) :
    let polled := job.pollStage (job.send worker message) worker phase
      (stages worker)
    Known clean { polled.1 with
      doing := doing (Function.update stages worker polled.2) } := by
  have standing := known.meets worker
  rw [isDoing, starting.standing, if_pos isNew] at standing
  cases isStage : stages worker with
  | send =>
      rw [isStage] at standing
      refine known.polled starting isDoing isNew rfl rfl rfl rfl ?_ ?_
        (fun _ => id) rfl fun isAwait => by cases isAwait
      · intro other same
        exact Function.update_of_ne same ..
      · simp only [Job.Meets, Job.pollStage, Job.send, setPeer,
          Function.update_self]
        exact starting.sends standing
  | register =>
      rw [isStage] at standing
      refine known.polled starting isDoing isNew rfl rfl rfl rfl
        (fun _ _ => rfl) standing (fun _ => WatchMap.Pends.notify) rfl ?_
      intro receiver isAwait
      obtain rfl := Stage.await.inj isAwait
      exact ⟨WatchMap.not_completed_notify, WatchMap.pends_notify⟩
  | await receiver =>
      have asked : Doing.Asks job.activeWorkers job.doing receiver
          (onePhase worker phase) (· = worker) exchange heard := by
        rw [isDoing, starting.asks]
        exact ⟨worker, isNew, isStage, rfl, rfl, rfl, rfl⟩
      obtain ⟨answer, pends⟩ := known.answered asked
      unfold Job.pollStage
      by_cases done : receiver ∈ job.states.completed
      · simp only [if_pos done]
        exact known.polled starting isDoing isNew rfl rfl rfl rfl
          (fun _ _ => rfl) (answer done worker rfl) (fun _ => id) rfl
          fun isAwait => by cases isAwait
      · rw [isStage] at standing
        simp only [if_neg done]
        refine known.polled starting isDoing isNew rfl rfl rfl rfl
          (fun _ _ => rfl) standing (fun _ => id) rfl ?_
        intro other isAwait
        obtain rfl := Stage.await.inj isAwait
        exact ⟨done, pends done⟩
  | ready =>
      rw [isStage] at standing
      exact known.polled starting isDoing isNew rfl rfl rfl rfl
        (fun _ _ => rfl) standing (fun _ => id) rfl fun isAwait => by cases isAwait

theorem starting_build (start : Start) (new : List WorkerId)
    (info : BuildInformation) :
    Starting clean (.build start new) new .fresh (.startBuild info) .build
      .buildComplete [.buildComplete] where
  standing _ _ _ := rfl
  lists _ _ := .rfl
  asks := by
    intro active stages receiver condition who exchange' heard'
    constructor
    · intro asks
      cases asks with
      | built member waits => exact ⟨_, member, waits, rfl, rfl, rfl, rfl⟩
    · rintro ⟨worker, member, waits, rfl, rfl, rfl, rfl⟩
      exact .built member waits
  sends meets := meets.1.askBuild meets.2

theorem starting_execution (start : Start) (new : List WorkerId) :
    Starting clean (.execution start new) new (.hears .build [.buildComplete])
      .startExecution .execution .running [.executionStarted] where
  standing _ _ _ := rfl
  lists _ _ := .rfl
  asks := by
    intro active stages receiver condition who exchange' heard'
    constructor
    · intro asks
      cases asks with
      | executing member waits => exact ⟨_, member, waits, rfl, rfl, rfl, rfl⟩
    · rintro ⟨worker, member, waits, rfl, rfl, rfl, rfl⟩
      exact .executing member waits
  sends meets := Hears.askExecution meets

theorem Known.poll (known : Known clean job)
    (allowed : job.allowed (.poll worker)) : Known clean (job.poll worker) := by
  unfold Job.allowed at allowed
  unfold Job.poll
  cases isDoing : job.doing with
  | build start new stages =>
      simp only [isDoing] at allowed
      exact known.pollStage (starting_build start new _) isDoing allowed
  | execution start new stages =>
      simp only [isDoing] at allowed
      exact known.pollStage (starting_execution start new) isDoing allowed
  | setup | reset | watch | idle | perform | serialize | commit | tidy | finish
  | finished => simp [isDoing] at allowed

theorem Known.request (known : Known clean job) (isIdle : job.doing = .idle)
    (operation : RequestOperation) : Known clean (job.handle operation) := by
  have settles := known.settles (.inr (.inl isIdle))
  cases operation with
  | snapshot => exact known.perform settles
  | scale desired =>
      unfold Job.handle
      dsimp only
      split
      next => exact known.rest rfl rfl rfl rfl settles (.inr (.inr (.inl rfl)))
      next =>
        refine known.turn rfl rfl rfl ?_ ⟨?_, fun _ => id⟩ ?_
        · intro worker _
          have standing := settles worker
          simp only [Doing.standing]
          split
          next isNew =>
            have other := of_decide_eq_true (List.mem_filter.mp isNew).2
            rw [Standing.settled, if_neg other] at standing
            exact standing.1
          next => exact standing
        · exact (IndexSet.ofList (List.range desired)).nodup.filter _
        · intro receiver condition who exchange heard asks
          cases asks

/-- Communication is only set up for a worker when the inbound task of its last
incarnation has ended. -/
theorem Known.step {event : Event} (known : Known clean job)
    (allowed : job.allowed event) (separate : job.separate event) :
    Known clean (job.next event) := by
  cases event with
  | coordinate =>
      obtain ⟨next, stepped⟩ := Option.isSome_iff_exists.mp allowed
      have isNext : job.next .coordinate = next := by
        simp [Job.next, stepped]
      rw [isNext]
      exact known.coordinate separate stepped
  | poll worker => exact known.poll allowed
  | request operation =>
      refine known.request ?_ operation
      cases isDoing : job.doing <;> simp [Job.allowed, isDoing] at allowed ⊢
  | spawn worker => exact known.moves (.spawn allowed)
  | work worker => exact known.moves (.work allowed)
  | complete worker => exact known.moves (.complete allowed)
  | leave worker =>
      cases isLeaving : (job.peers worker).leaving with
      | nil => exact absurd isLeaving allowed
      | cons incarnation rest =>
          simp only [Job.next, isLeaving]
          exact known.moves (.leave isLeaving)
  | receive worker task => exact known.moves (.receive allowed.1 allowed.2)
  | apply worker task =>
      obtain ⟨report, held⟩ := allowed
      simp only [Job.next, held]
      exact known.apply held

theorem known_boot (state : SerializableCoordinatorState)
    (resume : Option SnapshotVersion) :
    Known (∀ worker ∈ state.workerStates, worker ∈ state.activeWorkers)
      (boot state resume) where
  meets := by
    intro worker
    have away : Away {} :=
      ⟨.inl rfl, rfl, rfl, .inl ⟨rfl, rfl, rfl⟩⟩
    simp only [boot, Job.Meets, Doing.standing]
    split
    next => exact away
    next other =>
      have isEmpty : worker ∉ (IndexMap.empty : IndexMap WorkerId Unit) :=
        List.not_mem_nil
      rw [Standing.settled, if_neg isEmpty]
      refine ⟨away, fun clean => IndexMap.get?_eq_none.mpr fun isEntry => ?_⟩
      exact other (clean worker isEntry)
  lists := ⟨state.activeWorkers.nodup, fun _ => id⟩
  answered := by
    intro receiver condition who exchange heard asks
    cases asks
  committed := by
    intro _ commit member
    cases member

end

end Job

end Malstrom.Coordinator
