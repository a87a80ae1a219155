import Malstrom.Coordinator.Conversation

namespace Malstrom.Coordinator

open Data

/-! What the coordinator knows of a worker. -/

/-- These messages were applied, and perhaps more. -/
def Hears (worker : WorkerId) (exchange : Exchange)
    (heard : List WorkerMessage) (entry : Option WorkerState) (peer : Peer) :
    Prop :=
  ∃ sent applied, Talks worker exchange entry peer sent applied ∧
    heard <+: sent.take applied

section

variable {worker : WorkerId} {exchange : Exchange} {entry : Option WorkerState}
  {peer next : Peer} {heard : List WorkerMessage} {procedure : Procedure}

theorem Hears.moves (hears : Hears worker exchange heard entry peer)
    (moves : Moves worker peer next) :
    Hears worker exchange heard entry next := by
  obtain ⟨sent, applied, talks, isHeard⟩ := hears
  obtain ⟨more, talks'⟩ := talks.moves moves
  refine ⟨sent ++ more, applied, talks', ?_⟩
  rwa [List.take_append_of_le_length talks.bound]

theorem Hears.apply (hears : Hears worker exchange heard entry peer)
    {task : Nat} {report : Report} {entry' : Option WorkerState}
    (held : peer.tasks[task]? = some (some report))
    (isEntry : entry'.map WorkerState.phase = report.message.phase?) :
    Hears worker exchange heard entry'
      (peer.applied task report.message) := by
  obtain ⟨sent, applied, talks, isHeard⟩ := hears
  refine ⟨sent, applied + 1, (talks.apply held isEntry).2, ?_⟩
  exact isHeard.trans (List.take_prefix_take_left (by omega))

theorem Hears.reported (hears : Hears worker exchange heard entry peer)
    {message : WorkerMessage} (member : message ∈ heard) :
    ⟨peer.setups, message⟩ ∈ peer.reported := by
  obtain ⟨sent, applied, talks, isHeard⟩ := hears
  exact talks.reported message (List.mem_of_mem_take (isHeard.subset member))

theorem Hears.pending (hears : Hears worker exchange heard entry peer) :
    ∀ report ∈ peer.pending, report.incarnation = peer.setups := by
  obtain ⟨sent, applied, talks, _⟩ := hears
  intro report member
  rw [talks.pending] at member
  obtain ⟨message, _, rfl⟩ := List.mem_map.mp member
  rfl

end

/-! What a worker has sent decides what it can be asked next. -/

section

variable {worker : WorkerId} {exchange : Exchange} {setups builds : Nat}
  {thread : Thread} {commands : List CoordinationMessage} {leaving : List Nat}
  {sent : List WorkerMessage} {procedure : Procedure}

theorem Progress.hasBuilt
    (progress : Progress worker setups .build thread commands leaving builds
      sent) (some : sent ≠ []) :
    sent = [.buildComplete] ∧ commands = [] ∧
      Progress worker setups .execution thread [.startExecution] leaving builds
        [] := by
  cases progress with
  | buildAsked => exact absurd rfl some
  | built => exact ⟨rfl, rfl, .executionAsked⟩
  | running said => cases said
  | ended stopped said =>
      obtain said | ⟨⟨procedure, isBuild⟩, _⟩ := said
      · cases said
      · cases isBuild

theorem Progress.hasExecuted
    (progress : Progress worker setups .execution thread commands leaving builds
      sent) (some : sent ≠ []) :
    ∃ rest, sent = .executionStarted :: rest ∧
      Progress worker setups .none thread commands leaving builds rest := by
  cases progress with
  | executionAsked => exact absurd rfl some
  | running said =>
      cases said
      exact ⟨[], rfl, .running .idle⟩
  | ended stopped said isSent =>
      obtain said | ⟨⟨procedure, isExecution⟩, _⟩ := said
      · cases said
        exact ⟨_, isSent, .ended stopped (.inl .idle) rfl⟩
      · cases isExecution

theorem Progress.ask
    (progress : Progress worker setups .none thread commands leaving builds
      sent) :
    Progress worker setups (.procedure procedure) thread
      (commands ++ [procedure.command]) leaving builds sent := by
  cases progress with
  | running said =>
      cases said
      exact .asked
  | ended stopped said isSent =>
      have isBefore : sent = [.executionComplete] := by
        obtain said | ⟨⟨procedure, isNone⟩, _⟩ := said
        · cases said
          exact isSent
        · cases isNone
      refine .ended ⟨stopped.1, ?_⟩ (.inr ⟨⟨procedure, rfl⟩, rfl⟩) isBefore
      intro info member
      cases List.mem_append.mp member with
      | inl queued => exact stopped.2 info queued
      | inr last => cases procedure <;> simp [Procedure.command] at last

/-- What can follow once a worker is through with a procedure. -/
def Through (worker : WorkerId) (procedure : Procedure) (setups : Nat)
    (thread : Thread) (commands : List CoordinationMessage)
    (leaving : List Nat) (builds : Nat) (rest : List WorkerMessage) : Prop :=
  if procedure.removes worker = true then
    thread.waits ∧ commands = [] ∧ builds = setups ∧
      (leaving = [setups] ∧ rest = [] ∨ leaving = [] ∧ rest = [.removed])
  else Progress worker setups .none thread commands leaving builds rest

theorem Progress.hasPerformed
    (progress : Progress worker setups (.procedure procedure) thread commands
      leaving builds sent) :
    sent = [] ∨ sent = [.executionComplete] ∨ sent = [procedure.started] ∨
      ∃ rest, sent = procedure.started :: procedure.complete :: rest ∧
        Through worker procedure setups thread commands leaving builds
          rest := by
  unfold Through
  cases progress with
  | running said =>
      cases said with
      | done stays =>
          refine .inr (.inr (.inr ⟨[], rfl, ?_⟩))
          rw [if_neg (by simp [stays])]
          exact .running .idle
  | asked => exact .inl rfl
  | ended stopped said isSent =>
      obtain said | ⟨_, rfl⟩ := said
      · cases said with
        | done stays =>
            refine .inr (.inr (.inr ⟨_, isSent, ?_⟩))
            rw [if_neg (by simp [stays])]
            exact .ended stopped (.inl .idle) rfl
      · exact .inr (.inl isSent)
  | begun => exact .inr (.inr (.inl rfl))
  | left leaves waits =>
      refine .inr (.inr (.inr ⟨[], rfl, ?_⟩))
      rw [if_pos leaves]
      exact ⟨waits, rfl, rfl, .inl ⟨rfl, rfl⟩⟩
  | removed leaves waits =>
      refine .inr (.inr (.inr ⟨_, rfl, ?_⟩))
      rw [if_pos leaves]
      exact ⟨waits, rfl, rfl, .inr ⟨rfl, rfl⟩⟩

end

section

variable {worker : WorkerId} {entry : Option WorkerState} {peer : Peer}
  {heard : List WorkerMessage} {procedure : Procedure}

theorem Hears.built (hears : Hears worker .build heard entry peer)
    (isBuilt : entry.map WorkerState.phase = some .buildComplete) :
    Hears worker .build [.buildComplete] entry peer := by
  obtain ⟨sent, applied, talks, _⟩ := hears
  refine ⟨sent, applied, talks, ?_⟩
  have settled := talks.entry
  rw [isBuilt] at settled
  have some : sent.take applied ≠ [] := by
    intro isNone
    rw [isNone] at settled
    simp [settle, Exchange.phase] at settled
  obtain ⟨rfl, _⟩ := talks.progress.hasBuilt (by rintro rfl; simp at some)
  cases applied with
  | zero => simp at some
  | succ applied => simp

theorem Hears.executing (hears : Hears worker .execution heard entry peer)
    (runs : entry.map WorkerState.phase = some .running) :
    Hears worker .execution [.executionStarted] entry peer := by
  obtain ⟨sent, applied, talks, _⟩ := hears
  refine ⟨sent, applied, talks, ?_⟩
  have settled := talks.entry
  rw [runs] at settled
  have some : sent.take applied ≠ [] := by
    intro isNone
    rw [isNone] at settled
    simp [settle, Exchange.phase] at settled
  obtain ⟨rest, rfl, _⟩ := talks.progress.hasExecuted (by rintro rfl; simp at some)
  cases applied with
  | zero => simp at some
  | succ applied => simp

theorem Hears.started
    (hears : Hears worker (.procedure procedure) heard entry peer)
    (performs : entry = none ∨
      entry.map WorkerState.phase = some procedure.phase) :
    Hears worker (.procedure procedure) [procedure.started] entry peer := by
  obtain ⟨sent, applied, talks, _⟩ := hears
  refine ⟨sent, applied, talks, ?_⟩
  have settled := talks.entry
  have other : settle (.procedure procedure) (sent.take applied) ≠
      some .running ∧ settle (.procedure procedure) (sent.take applied) ≠
      some .completed := by
    rw [← settled]
    obtain rfl | performs := performs
    · simp
    · rw [performs]
      cases procedure <;> simp [Procedure.phase]
  have some : sent.take applied ≠ [] := by
    intro isNone
    rw [isNone] at other
    simp [settle, Exchange.phase] at other
  obtain ⟨applied, rfl⟩ : ∃ before, applied = before + 1 :=
    Nat.exists_eq_succ_of_ne_zero (by rintro rfl; simp at some)
  obtain rfl | rfl | rfl | ⟨rest, rfl, _⟩ := talks.progress.hasPerformed
  · simp at some
  · simp [settle, WorkerMessage.phase?] at other
  · simp
  · simp

theorem Hears.complete
    (hears : Hears worker (.procedure procedure) [procedure.started] entry peer)
    (runs : entry = none ∨ entry.map WorkerState.phase = some .running) :
    Hears worker (.procedure procedure)
      [procedure.started, procedure.complete] entry peer := by
  obtain ⟨sent, applied, talks, isHeard⟩ := hears
  refine ⟨sent, applied, talks, ?_⟩
  have settled := talks.entry
  have other : settle (.procedure procedure) (sent.take applied) ≠
      some procedure.phase := by
    rw [← settled]
    obtain rfl | runs := runs
    · simp
    · rw [runs]
      simpa using procedure.phase_ne_running.symm
  have isPhase : procedure.started.phase? = some procedure.phase := by
    cases procedure <;> rfl
  have notLast : procedure.started ≠ .executionComplete := by
    cases procedure <;> simp [Procedure.started]
  obtain ⟨applied, rfl⟩ : ∃ before, applied = before + 1 :=
    Nat.exists_eq_succ_of_ne_zero (by rintro rfl; simp at isHeard)
  obtain rfl | rfl | rfl | ⟨rest, rfl, _⟩ := talks.progress.hasPerformed
  · simp at isHeard
  · simp [notLast] at isHeard
  · simp [settle, isPhase] at other
  · cases applied with
    | zero => simp [settle, isPhase] at other
    | succ applied => simp

theorem Hears.askExecution
    (hears : Hears worker .build [.buildComplete] entry peer) :
    Hears worker .execution [] entry
      { peer with commands := peer.commands ++ [.startExecution] } := by
  obtain ⟨sent, applied, talks, isHeard⟩ := hears
  obtain ⟨rfl, noCommands, asked⟩ :=
    talks.progress.hasBuilt (by rintro rfl; simp at isHeard)
  have bound : 1 ≤ applied := isHeard.length_le.trans (List.length_take_le ..)
  have talks' := talks.rebase .execution [.buildComplete]
    (List.append_nil _).symm bound rfl (by simp) asked
  rw [noCommands]
  exact ⟨_, _, talks', List.nil_prefix⟩

/-- A worker which executes is asked for nothing else yet. -/
theorem Hears.idle
    (hears : Hears worker .execution [.executionStarted] entry peer) :
    Hears worker .none [] entry peer := by
  obtain ⟨sent, applied, talks, isHeard⟩ := hears
  obtain ⟨rest, rfl, runs⟩ :=
    talks.progress.hasExecuted (by rintro rfl; simp at isHeard)
  have bound : 1 ≤ applied := isHeard.length_le.trans (List.length_take_le ..)
  have talks' := talks.rebase .none [.executionStarted] rfl bound rfl
    (by simp) runs
  exact ⟨_, _, talks', List.nil_prefix⟩

theorem Hears.askProcedure (hears : Hears worker .none [] entry peer) :
    Hears worker (.procedure procedure) [] entry
      { peer with commands := peer.commands ++ [procedure.command] } := by
  obtain ⟨sent, applied, talks, isHeard⟩ := hears
  have talks' := talks.rebase (.procedure procedure) [] rfl (Nat.zero_le _)
    rfl (by simp) talks.progress.ask
  exact ⟨_, _, talks', List.nil_prefix⟩

/-- Nothing is heard of a worker which is not part of the job, except that a
removed one may still have to say so. -/
structure Away (peer : Peer) : Prop where
  waits : peer.thread.waits
  commands : peer.commands = []
  builds : peer.builds = peer.setups
  quiet : peer.tasks = [] ∧ peer.pending = [] ∧ peer.leaving = [] ∨
    (∃ held, peer.tasks = [held]) ∧
      (peer.leaving = [peer.setups] ∧ peer.pending = [] ∨
        peer.leaving = [] ∧ peer.pending = [⟨peer.setups, .removed⟩])

theorem Hears.through (hears : Hears worker (.procedure procedure)
      [procedure.started, procedure.complete] entry peer) :
    ∃ rest applied, Talks worker (.procedure procedure) entry peer
        (procedure.started :: procedure.complete :: rest) (applied + 2) ∧
      Through worker procedure peer.setups peer.thread peer.commands
        peer.leaving peer.builds rest := by
  obtain ⟨sent, applied, talks, isHeard⟩ := hears
  have bound : 2 ≤ applied := isHeard.length_le.trans (List.length_take_le ..)
  have heard := isHeard.trans (List.take_prefix ..)
  obtain ⟨before, rfl⟩ := Nat.exists_eq_add_of_le' bound
  obtain rfl | rfl | rfl | ⟨rest, rfl, through⟩ := talks.progress.hasPerformed
  · simp at heard
  · simp at heard
  · simp at heard
  · exact ⟨rest, before, talks, through⟩

theorem Hears.stays
    (hears : Hears worker (.procedure procedure)
      [procedure.started, procedure.complete] entry peer)
    (stays : procedure.removes worker = false) :
    Hears worker .none [] entry peer := by
  obtain ⟨rest, applied, talks, through⟩ := hears.through
  rw [Through, if_neg (by simp [stays])] at through
  have talks' := talks.rebase .none
    [procedure.started, procedure.complete] rfl (by simp)
    (by cases procedure <;> rfl)
    (by cases procedure <;> simp [Procedure.started, Procedure.complete])
    through
  exact ⟨_, _, talks', List.nil_prefix⟩

/-- A worker which is not in the new configuration has only its removal left to
report. -/
theorem Hears.leaves
    (hears : Hears worker (.procedure procedure)
      [procedure.started, procedure.complete] entry peer)
    (leaves : procedure.removes worker = true) : Away peer := by
  obtain ⟨rest, applied, talks, through⟩ := hears.through
  rw [Through, if_pos leaves] at through
  obtain ⟨waits, noCommands, isBuilds, goes⟩ := through
  refine ⟨waits, noCommands, isBuilds, ?_⟩
  have pending := talks.pending
  have tasks := talks.tasks
  have isStarted : procedure.started ≠ .removed := by
    cases procedure <;> simp [Procedure.started]
  have isComplete : procedure.complete ≠ .removed := by
    cases procedure <;> simp [Procedure.complete]
  obtain ⟨isLeaving, rfl⟩ | ⟨isLeaving, rfl⟩ := goes
  · rw [if_neg (by simp [isStarted.symm, isComplete.symm])] at tasks
    exact .inr ⟨tasks, .inl ⟨isLeaving, by simpa using pending⟩⟩
  · cases applied with
    | zero =>
        rw [if_neg (by simp [isStarted.symm, isComplete.symm])] at tasks
        exact .inr ⟨tasks, .inr ⟨isLeaving, by simpa using pending⟩⟩
    | succ applied =>
        rw [if_pos (by simp)] at tasks
        exact .inl ⟨tasks, by simpa using pending, isLeaving⟩

/-! ### Workers which take no part yet, or no longer -/

theorem Away.idle (away : Away peer) : peer.canWork = false := by
  obtain isThread | isThread := away.waits <;>
    simp [Peer.canWork, isThread, away.commands]

theorem Away.single (away : Away peer) : peer.tasks.length ≤ 1 := by
  obtain ⟨none, _⟩ | ⟨⟨held, isTasks⟩, _⟩ := away.quiet
  · simp [none]
  · simp [isTasks]

theorem Away.moves (away : Away peer) {next : Peer}
    (moves : Moves worker peer next) : Away next := by
  cases moves with
  | spawn gone => exact ⟨.inr rfl, away.commands, away.builds, away.quiet⟩
  | work can => simp [away.idle] at can
  | complete runs => cases away.waits <;> simp_all
  | @leave incarnation rest leaving =>
      refine ⟨away.waits, away.commands, away.builds, .inr ?_⟩
      obtain ⟨_, _, none⟩ | ⟨held, ⟨isLeaving, pending⟩ | ⟨none, _⟩⟩ :=
        away.quiet
      · rw [leaving] at none
        contradiction
      · rw [leaving] at isLeaving
        obtain ⟨rfl, rfl⟩ := List.cons.inj isLeaving
        refine ⟨held, .inr ⟨rfl, ?_⟩⟩
        unfold Peer.pending at pending ⊢
        rw [← List.append_assoc, pending, List.nil_append]
      · rw [leaving] at none
        contradiction
  | @receive task queued free =>
      have pending := receive_pending away.single free
      obtain ⟨isNext, length⟩ := receive_eq peer task
      generalize peer.receive task = received at isNext length pending ⊢
      rw [isNext] at pending ⊢
      refine ⟨away.waits, away.commands, away.builds, ?_⟩
      obtain ⟨noTasks, quiet⟩ | ⟨⟨held, isTasks⟩, goes⟩ := away.quiet
      · simp [noTasks] at free
      · rw [isTasks] at length
        rw [← pending] at goes
        exact .inr ⟨List.length_eq_one_iff.mp length, goes⟩

theorem Away.apply (away : Away peer) {task : Nat} {report : Report}
    (held : peer.tasks[task]? = some (some report)) :
    report = ⟨peer.setups, .removed⟩ ∧
      Away (peer.applied task report.message) := by
  obtain ⟨noTasks, _⟩ | ⟨⟨first, isTasks⟩, goes⟩ := away.quiet
  · simp [noTasks] at held
  · obtain ⟨within, isHeld⟩ := List.getElem?_eq_some_iff.mp held
    obtain rfl : task = 0 := by simp [isTasks] at within; omega
    obtain rfl : first = some report := by simpa [isTasks] using isHeld
    obtain ⟨_, none⟩ | ⟨noLeaving, pending⟩ := goes
    · simp [Peer.pending, isTasks] at none
    · obtain ⟨rfl, noReports⟩ : report = ⟨peer.setups, .removed⟩ ∧
          peer.reports = [] := by simpa [Peer.pending, isTasks] using pending
      refine ⟨rfl, away.waits, away.commands, away.builds, .inl ⟨?_, ?_, ?_⟩⟩
      · simp [Peer.applied, isTasks]
      · simp [Peer.pending, Peer.applied, isTasks, noReports]
      · exact noLeaving

/-- Communication was set up for the worker, which is still to build. -/
structure Fresh (peer : Peer) : Prop where
  waits : peer.thread.waits
  commands : peer.commands = []
  builds : peer.builds + 1 = peer.setups
  leaving : peer.leaving = []
  tasks : peer.tasks = [none]
  reports : peer.reports = []

theorem Away.setup (away : Away peer) (separate : peer.tasks = []) :
    Fresh { peer with
      tasks := peer.tasks ++ [none], setups := peer.setups + 1 } := by
  obtain ⟨_, pending, leaving⟩ | ⟨⟨held, isTasks⟩, _⟩ := away.quiet
  · refine ⟨away.waits, away.commands, ?_, leaving, ?_, ?_⟩
    · exact congrArg (· + 1) away.builds
    · rw [separate]
      rfl
    · simpa [Peer.pending, separate] using pending
  · rw [separate] at isTasks
    contradiction

theorem Fresh.moves (fresh : Fresh peer) {next : Peer}
    (moves : Moves worker peer next) : Fresh next := by
  obtain ⟨waits, noCommands, isBuilds, noLeaving, isTasks, noReports⟩ := fresh
  cases moves with
  | spawn gone =>
      exact ⟨.inr rfl, noCommands, isBuilds, noLeaving, isTasks, noReports⟩
  | work can =>
      obtain isThread | isThread := waits <;>
        simp [Peer.canWork, isThread, noCommands] at can
  | complete runs => cases waits <;> simp_all
  | leave leaving => simp [noLeaving] at leaving
  | receive queued => exact absurd noReports queued

theorem Fresh.not_held (fresh : Fresh peer) {task : Nat} {report : Report} :
    peer.tasks[task]? ≠ some (some report) := by
  rw [fresh.tasks]
  cases task <;> simp

theorem Fresh.askBuild (fresh : Fresh peer) {info : BuildInformation}
    (unknown : entry.map WorkerState.phase = some .unknown) :
    Hears worker .build [] entry
      { peer with commands := peer.commands ++ [.startBuild info] } := by
  refine ⟨[], 0, ⟨?_, ?_, Nat.le_refl _, unknown, ?_, by simp⟩, List.nil_prefix⟩
  · rw [fresh.commands, fresh.leaving]
    exact .buildAsked fresh.waits fresh.builds
  · simp [Peer.pending, fresh.tasks, fresh.reports]
  · exact ⟨none, fresh.tasks⟩

end

end Malstrom.Coordinator
