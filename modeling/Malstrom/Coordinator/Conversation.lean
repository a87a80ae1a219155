import Malstrom.Coordinator.Job

namespace Malstrom.Coordinator

open Data

/-! What the coordinator and one worker have told each other, as long as one
inbound task at a time listens to the worker. -/

/-- The phase a worker is in once its message was applied, `none` when it is
forgotten. -/
def WorkerMessage.phase? : WorkerMessage → Option WorkerPhase
  | .buildComplete => some .buildComplete
  | .executionStarted | .snapshotComplete _ | .reconfigureComplete _ =>
      some .running
  | .snapshotStarted => some .snapshotting
  | .reconfigurationStarted => some .reconfiguring
  | .executionComplete => some .completed
  | .suspendComplete => some .suspended
  | .removed => none

theorem phase_workerCommInbound (states : States) (worker : WorkerId)
    (message : WorkerMessage) :
    ((workerCommInbound states worker message).store.get? worker).map
      WorkerState.phase = message.phase? := by
  cases message <;>
    simp [workerCommInbound, WorkerMessage.apply?, WorkerMessage.phase?,
      WatchMap.applyOrDefault, WatchMap.remove, IndexMap.get?_insert_self,
      IndexMap.get?_swapRemove]

theorem workerCommInbound_change (states : States) (worker : WorkerId)
    (message : WorkerMessage) :
    ∃ store, workerCommInbound states worker message = states.change store ∧
      ∀ other, other ≠ worker →
        store.get? other = states.store.get? other := by
  unfold workerCommInbound
  split
  next apply _ =>
    exact ⟨_, rfl, fun other different =>
      IndexMap.get?_insert_of_ne _ _ different⟩
  next =>
    refine ⟨_, rfl, fun other different => ?_⟩
    rw [IndexMap.get?_swapRemove, if_neg different]

inductive Exchange where
  | none
  | build
  | execution
  | procedure (procedure : Procedure)

def Exchange.phase : Exchange → WorkerPhase
  | .none | .procedure _ => .running
  | .build => .unknown
  | .execution => .buildComplete

/-- The thread waits for a command to build, or is not there yet. -/
def Thread.waits (thread : Thread) : Prop :=
  thread = .absent ∨ thread = .awaitsBuild

/-- The thread has ended for good, a new one is not told to build. -/
def Thread.stopped (thread : Thread) (commands : List CoordinationMessage) :
    Prop :=
  (thread = .ended ∨ thread = .awaitsBuild) ∧
    ∀ info, .startBuild info ∉ commands

inductive Said (worker : WorkerId) : Exchange → List WorkerMessage → Prop
  | executing : Said worker .execution [.executionStarted]
  | idle : Said worker .none []
  | done {procedure : Procedure} (stays : procedure.removes worker = false) :
      Said worker (.procedure procedure) [procedure.started, procedure.complete]

/-- What a worker has sent in an exchange, by where its thread is. -/
inductive Progress (worker : WorkerId) (setups : Nat) :
    Exchange → Thread → List CoordinationMessage → List Nat → Nat →
      List WorkerMessage → Prop
  | buildAsked {thread : Thread} {info : BuildInformation} {builds : Nat}
      (waits : thread.waits) (fresh : builds + 1 = setups) :
      Progress worker setups .build thread [.startBuild info] [] builds []
  | built : Progress worker setups .build .built [] [] setups [.buildComplete]
  | executionAsked :
      Progress worker setups .execution .built [.startExecution] [] setups []
  | running {exchange : Exchange} {sent : List WorkerMessage}
      (said : Said worker exchange sent) :
      Progress worker setups exchange .running [] [] setups sent
  | asked {procedure : Procedure} :
      Progress worker setups (.procedure procedure) .running
        [procedure.command] [] setups []
  | ended {exchange : Exchange} {thread : Thread}
      {commands : List CoordinationMessage} {sent before : List WorkerMessage}
      (stopped : thread.stopped commands)
      (said : Said worker exchange before ∨
        (∃ procedure, exchange = .procedure procedure) ∧ before = [])
      (isSent : sent = before ++ [.executionComplete]) :
      Progress worker setups exchange thread commands [] setups sent
  | begun {procedure : Procedure} :
      Progress worker setups (.procedure procedure) (.performing procedure) []
        [] setups [procedure.started]
  | left {procedure : Procedure} {thread : Thread}
      (leaves : procedure.removes worker = true) (waits : thread.waits) :
      Progress worker setups (.procedure procedure) thread [] [setups] setups
        [procedure.started, procedure.complete]
  | removed {procedure : Procedure} {thread : Thread}
      (leaves : procedure.removes worker = true) (waits : thread.waits) :
      Progress worker setups (.procedure procedure) thread [] [] setups
        [procedure.started, procedure.complete, .removed]

def Peer.pending (peer : Peer) : List Report :=
  peer.tasks.filterMap id ++ peer.reports

/-- What is known of a worker once its first messages were applied. -/
def settle (exchange : Exchange) (applied : List WorkerMessage) :
    Option WorkerPhase :=
  applied.foldl (fun _ message => message.phase?) (some exchange.phase)

/-- The worker has sent these messages; so many of them were applied. -/
structure Talks (worker : WorkerId) (exchange : Exchange)
    (entry : Option WorkerState) (peer : Peer) (sent : List WorkerMessage)
    (applied : Nat) : Prop where
  progress : Progress worker peer.setups exchange peer.thread peer.commands
    peer.leaving peer.builds sent
  pending : peer.pending = (sent.drop applied).map (Report.mk peer.setups)
  bound : applied ≤ sent.length
  entry : entry.map WorkerState.phase = settle exchange (sent.take applied)
  tasks : if .removed ∈ sent.take applied then peer.tasks = []
    else ∃ held, peer.tasks = [held]
  reported : ∀ message ∈ sent, ⟨peer.setups, message⟩ ∈ peer.reported

/-! ### A worker by itself -/

inductive Moves (worker : WorkerId) (peer : Peer) : Peer → Prop
  | spawn (gone : peer.thread = .absent ∨ peer.thread = .ended) :
      Moves worker peer { peer with thread := .awaitsBuild }
  | work (can : peer.canWork) : Moves worker peer (peer.work worker)
  | complete (runs : peer.thread = .running) :
      Moves worker peer
        ({ peer with thread := .ended }.report .executionComplete)
  | leave {incarnation : Nat} {rest : List Nat}
      (leaving : peer.leaving = incarnation :: rest) :
      Moves worker peer { peer with
        leaving := rest
        reports := peer.reports ++ [⟨incarnation, .removed⟩]
        reported := peer.reported ++ [⟨incarnation, .removed⟩] }
  | receive {task : Nat} (queued : peer.reports ≠ [])
      (free : peer.tasks[task]? = some .none) :
      Moves worker peer (peer.receive task)

section

variable {worker : WorkerId} {exchange : Exchange} {entry : Option WorkerState}
  {peer next : Peer} {sent : List WorkerMessage} {applied : Nat}

theorem Talks.sends (talks : Talks worker exchange entry peer sent applied)
    {message : WorkerMessage}
    (progress : Progress worker peer.setups exchange next.thread next.commands
      next.leaving next.builds (sent ++ [message]))
    (setups : next.setups = peer.setups) (tasks : next.tasks = peer.tasks)
    (reports : next.reports = peer.reports ++ [⟨peer.setups, message⟩])
    (reported : next.reported = peer.reported ++ [⟨peer.setups, message⟩]) :
    Talks worker exchange entry next (sent ++ [message]) applied where
  progress := by rwa [setups]
  pending := by
    have before := talks.pending
    simp only [Peer.pending] at before
    simp only [Peer.pending, tasks, reports, setups]
    rw [← List.append_assoc, before, List.drop_append_of_le_length talks.bound]
    simp
  bound := by
    have := talks.bound
    simp only [List.length_append]
    omega
  entry := by
    rw [talks.entry, List.take_append_of_le_length talks.bound]
  tasks := by
    rw [List.take_append_of_le_length talks.bound, tasks]
    exact talks.tasks
  reported := by
    intro other member
    rw [setups, reported, List.mem_append]
    cases List.mem_append.mp member with
    | inl earlier => exact .inl (talks.reported other earlier)
    | inr last =>
        obtain rfl := List.mem_singleton.mp last
        exact .inr (List.mem_singleton_self _)

theorem Talks.keeps (talks : Talks worker exchange entry peer sent applied)
    (progress : Progress worker peer.setups exchange next.thread next.commands
      next.leaving next.builds sent)
    (setups : next.setups = peer.setups) (pending : next.pending = peer.pending)
    (tasks : next.tasks.length = peer.tasks.length)
    (reported : next.reported = peer.reported) :
    Talks worker exchange entry next sent applied where
  progress := by rwa [setups]
  pending := by rw [pending, setups, talks.pending]
  bound := talks.bound
  entry := talks.entry
  tasks := by
    have before := talks.tasks
    split at before
    next ended =>
      rw [before] at tasks
      rw [if_pos ended]
      exact List.length_eq_zero_iff.mp tasks
    next going =>
      obtain ⟨held, isTasks⟩ := before
      rw [isTasks] at tasks
      rw [if_neg going]
      exact List.length_eq_one_iff.mp tasks
  reported := by
    rw [setups, reported]
    exact talks.reported

theorem stopped_work (worker : WorkerId)
    (stopped : peer.thread.stopped peer.commands)
    (can : peer.canWork = true) :
    ∃ rest, peer.work worker =
        { peer with commands := rest, thread := .ended } ∧
      ∀ info, .startBuild info ∉ rest := by
  obtain ⟨isThread, noBuild⟩ := stopped
  cases isThread with
  | inl isEnded => simp [Peer.canWork, isEnded] at can
  | inr isWaiting =>
      cases queued : peer.commands with
      | nil => simp [Peer.canWork, isWaiting, queued] at can
      | cons command rest =>
          rw [queued] at noBuild
          refine ⟨rest, ?_, fun info member =>
            noBuild info (List.mem_cons_of_mem _ member)⟩
          cases command with
          | startBuild info => exact absurd List.mem_cons_self (noBuild info)
          | startExecution | snapshot | reconfigure | suspend =>
              simp [Peer.work, isWaiting, queued]

theorem Talks.work (talks : Talks worker exchange entry peer sent applied)
    (can : peer.canWork = true) :
    ∃ more, Talks worker exchange entry (peer.work worker) (sent ++ more)
      applied := by
  have progress := talks.progress
  generalize isThread : peer.thread = thread, isCommands : peer.commands =
    commands, isLeaving : peer.leaving = leaving, isBuilds : peer.builds =
    builds at progress
  cases progress with
  | buildAsked waits fresh =>
      obtain rfl | rfl := waits
      · simp [Peer.canWork, isThread] at can
      · refine ⟨[.buildComplete], talks.sends ?_ ?_ ?_ ?_ ?_⟩ <;>
          simp only [Peer.work, isThread, isCommands, Peer.report, isLeaving,
            isBuilds, fresh]
        exact .built
  | built => simp [Peer.canWork, isThread, isCommands] at can
  | executionAsked =>
      refine ⟨[.executionStarted], talks.sends ?_ ?_ ?_ ?_ ?_⟩ <;>
        simp only [Peer.work, isThread, isCommands, Peer.report, isLeaving,
          isBuilds]
      exact .running .executing
  | running said => simp [Peer.canWork, isThread, isCommands] at can
  | @asked procedure =>
      refine ⟨[procedure.started], talks.sends ?_ ?_ ?_ ?_ ?_⟩ <;>
        cases procedure <;>
        simp only [Peer.work, isThread, isCommands, Peer.report, isLeaving,
          isBuilds, Procedure.command, Procedure.started]
      · exact .begun
      · exact .begun
  | ended stopped said isSent =>
      rw [← isThread, ← isCommands] at stopped
      obtain ⟨rest, isNext, noBuild⟩ := stopped_work worker stopped can
      refine ⟨[], ?_⟩
      rw [isNext, List.append_nil]
      refine talks.keeps ?_ rfl rfl rfl rfl
      rw [isLeaving, isBuilds]
      exact .ended ⟨.inl rfl, noBuild⟩ said isSent
  | @begun procedure =>
      refine ⟨[procedure.complete], talks.sends ?_ ?_ ?_ ?_ ?_⟩ <;>
        cases removes : procedure.removes worker <;>
        simp only [Peer.work, isThread, removes, Peer.report, isLeaving,
          isBuilds, isCommands, if_true, Bool.false_eq_true, if_false]
      · exact .running (.done removes)
      · exact .left removes (.inl rfl)
  | left leaves waits | removed leaves waits =>
      obtain rfl | rfl := waits <;>
        simp [Peer.canWork, isThread, isCommands] at can

theorem Progress.complete {setups builds : Nat}
    {commands : List CoordinationMessage} {leaving : List Nat}
    (progress : Progress worker setups exchange .running commands leaving builds
      sent) :
    builds = setups ∧ Progress worker setups exchange .ended commands leaving
      builds (sent ++ [.executionComplete]) := by
  cases progress with
  | buildAsked waits => cases waits <;> contradiction
  | running said => exact ⟨rfl, .ended ⟨.inl rfl, by simp⟩ (.inl said) rfl⟩
  | @asked procedure =>
      refine ⟨rfl, .ended ⟨.inl rfl, ?_⟩ (.inr ⟨⟨procedure, rfl⟩, rfl⟩) rfl⟩
      cases procedure <;> simp [Procedure.command]
  | ended stopped => cases stopped.1 <;> contradiction
  | left leaves waits | removed leaves waits => cases waits <;> contradiction

theorem Talks.complete (talks : Talks worker exchange entry peer sent applied)
    (runs : peer.thread = .running) :
    ∃ more, Talks worker exchange entry
      ({ peer with thread := .ended }.report .executionComplete) (sent ++ more)
      applied := by
  have progress := talks.progress
  rw [runs] at progress
  obtain ⟨isBuilds, ended⟩ := progress.complete
  refine ⟨[.executionComplete], talks.sends ended rfl rfl ?_ ?_⟩ <;>
    simp only [Peer.report, isBuilds]

theorem Progress.leave {setups builds incarnation : Nat} {thread : Thread}
    {commands : List CoordinationMessage} {rest : List Nat}
    (progress : Progress worker setups exchange thread commands
      (incarnation :: rest) builds sent) :
    incarnation = setups ∧ rest = [] ∧ Progress worker setups exchange thread
      commands [] builds (sent ++ [.removed]) := by
  cases progress with
  | left leaves waits => exact ⟨rfl, rfl, .removed leaves waits⟩

theorem Talks.leave (talks : Talks worker exchange entry peer sent applied)
    {incarnation : Nat} {rest : List Nat}
    (leaving : peer.leaving = incarnation :: rest) :
    ∃ more, Talks worker exchange entry { peer with
      leaving := rest
      reports := peer.reports ++ [⟨incarnation, .removed⟩]
      reported := peer.reported ++ [⟨incarnation, .removed⟩] } (sent ++ more)
      applied := by
  have progress := talks.progress
  rw [leaving] at progress
  obtain ⟨rfl, rfl, left⟩ := progress.leave
  exact ⟨[.removed], talks.sends left rfl rfl rfl rfl⟩

theorem Progress.spawn {setups builds : Nat} {thread : Thread}
    {commands : List CoordinationMessage} {leaving : List Nat}
    (progress : Progress worker setups exchange thread commands leaving builds
      sent)
    (gone : thread = .absent ∨ thread = .ended) :
    Progress worker setups exchange .awaitsBuild commands leaving builds
      sent := by
  cases progress with
  | buildAsked waits fresh => exact .buildAsked (.inr rfl) fresh
  | ended stopped said isSent =>
      exact .ended ⟨.inr rfl, stopped.2⟩ said isSent
  | left leaves waits => exact .left leaves (.inr rfl)
  | removed leaves waits => exact .removed leaves (.inr rfl)
  | built | executionAsked | running | asked | begun =>
      cases gone <;> contradiction

theorem receive_pending {task : Nat} (single : peer.tasks.length ≤ 1)
    (free : peer.tasks[task]? = some none) :
    (peer.receive task).pending = peer.pending := by
  unfold Peer.receive
  split
  next => rfl
  next report rest queued =>
    obtain ⟨within, isFree⟩ := List.getElem?_eq_some_iff.mp free
    obtain rfl : task = 0 := by omega
    obtain ⟨held, isTasks⟩ := List.length_eq_one_iff.mp
      (show peer.tasks.length = 1 by omega)
    obtain rfl : held = none := by simpa [isTasks] using isFree
    simp [Peer.pending, isTasks, queued]

theorem receive_eq (peer : Peer) (task : Nat) :
    peer.receive task = { peer with
      reports := (peer.receive task).reports
      tasks := (peer.receive task).tasks } ∧
    (peer.receive task).tasks.length = peer.tasks.length := by
  unfold Peer.receive
  split
  next => exact ⟨rfl, rfl⟩
  next => exact ⟨rfl, List.length_set⟩

theorem Talks.single (talks : Talks worker exchange entry peer sent applied) :
    peer.tasks.length ≤ 1 := by
  have tasks := talks.tasks
  split at tasks
  next => simp [tasks]
  next =>
    obtain ⟨held, isTasks⟩ := tasks
    simp [isTasks]

theorem Talks.moves (talks : Talks worker exchange entry peer sent applied)
    (moves : Moves worker peer next) :
    ∃ more, Talks worker exchange entry next (sent ++ more) applied := by
  cases moves with
  | spawn gone =>
      refine ⟨[], ?_⟩
      rw [List.append_nil]
      exact talks.keeps (talks.progress.spawn gone) rfl rfl rfl rfl
  | work can => exact talks.work can
  | complete runs => exact talks.complete runs
  | leave leaving => exact talks.leave leaving
  | receive queued free =>
      refine ⟨[], ?_⟩
      rw [List.append_nil]
      have pending := receive_pending talks.single free
      rename_i task
      obtain ⟨isNext, length⟩ := receive_eq peer task
      generalize peer.receive task = received at isNext length pending ⊢
      rw [isNext]
      rw [isNext] at pending
      exact talks.keeps talks.progress rfl pending length rfl

theorem Talks.apply (talks : Talks worker exchange entry peer sent applied)
    {task : Nat} {report : Report} {entry' : Option WorkerState}
    (held : peer.tasks[task]? = some (some report))
    (isEntry : entry'.map WorkerState.phase = report.message.phase?) :
    report.incarnation = peer.setups ∧
      Talks worker exchange entry' (peer.applied task report.message) sent
        (applied + 1) := by
  obtain ⟨within, isHeld⟩ := List.getElem?_eq_some_iff.mp held
  have going : .removed ∉ sent.take applied := by
    intro ended
    have tasks := talks.tasks
    rw [if_pos ended] at tasks
    simp [tasks] at within
  have single := talks.single
  obtain rfl : task = 0 := by omega
  obtain ⟨first, isTasks⟩ := List.length_eq_one_iff.mp
    (show peer.tasks.length = 1 by omega)
  obtain rfl : first = some report := by simpa [isTasks] using isHeld
  have pending := talks.pending
  simp only [Peer.pending, isTasks, List.filterMap_cons, id,
    List.filterMap_nil, List.cons_append, List.nil_append] at pending
  obtain ⟨message, rest, isDrop, isMessage, isRest⟩ :=
    List.map_eq_cons_iff.mp pending.symm
  have bound : applied < sent.length := by
    by_contra ended
    rw [List.drop_eq_nil_of_le (by omega)] at isDrop
    contradiction
  have isNext : sent[applied] = message ∧ sent.drop (applied + 1) = rest := by
    rw [List.drop_eq_getElem_cons bound] at isDrop
    exact List.cons.inj isDrop
  have isTake : sent.take (applied + 1) = sent.take applied ++ [message] := by
    rw [← isNext.1, List.take_append_getElem]
  subst isMessage
  refine ⟨rfl, talks.progress, ?_, bound, ?_, ?_, talks.reported⟩
  · rw [isNext.2]
    show _ = rest.map (Report.mk peer.setups)
    rw [isRest]
    unfold Peer.pending Peer.applied
    split <;> simp [isTasks]
  · rw [isTake, isEntry]
    simp [settle]
  · rw [isTake]
    unfold Peer.applied
    by_cases last : message = .removed
    · simp [last, isTasks]
    · have more : .removed ∉ sent.take applied ++ [message] := by
        simp [going, Ne.symm last]
      rw [if_neg more]
      exact ⟨none, by simp [last, isTasks]⟩

theorem Talks.rebase (talks : Talks worker exchange entry peer sent applied)
    (exchange' : Exchange) (first : List WorkerMessage)
    {rest : List WorkerMessage} {commands : List CoordinationMessage}
    (isSent : sent = first ++ rest) (heard : first.length ≤ applied)
    (phase : settle exchange first = some exchange'.phase)
    (stays : .removed ∉ first)
    (progress : Progress worker peer.setups exchange' peer.thread commands
      peer.leaving peer.builds rest) :
    Talks worker exchange' entry { peer with commands := commands } rest
      (applied - first.length) := by
  have isTake : sent.take applied =
      first ++ rest.take (applied - first.length) := by
    rw [isSent, List.take_append, List.take_of_length_le heard]
  have isDrop : sent.drop applied = rest.drop (applied - first.length) := by
    rw [isSent, List.drop_append, List.drop_eq_nil_of_le heard, List.nil_append]
  refine ⟨progress, ?_, ?_, ?_, ?_, ?_⟩
  · rw [← isDrop]
    exact talks.pending
  · have bound := talks.bound
    rw [isSent, List.length_append] at bound
    omega
  · rw [talks.entry, isTake]
    unfold settle at phase ⊢
    rw [List.foldl_append, phase]
  · have tasks := talks.tasks
    rw [isTake] at tasks
    simpa only [List.mem_append, stays, false_or] using tasks
  · intro message member
    refine talks.reported message ?_
    rw [isSent]
    exact List.mem_append_right _ member

end

end Malstrom.Coordinator
