import Malstrom.Coordinator.Procedure
import Malstrom.Data.Transition

namespace Malstrom.Coordinator

open Data

/-! The reports of all workers during one procedure. -/

structure Round where
  states : States
  performing : Performing
  /-- What a worker has still to report. -/
  due : WorkerId → List WorkerMessage
  /-- What its inbound task has still to apply. -/
  reports : WorkerId → List WorkerMessage

inductive Round.Event where
  | coordinate
  | report (worker : WorkerId)
  | apply (worker : WorkerId)
  deriving DecidableEq

namespace Round

def start (procedure : Procedure) (active : IndexSet WorkerId)
    (states : States) : Round where
  states := states
  performing := .sending active.items
  due worker :=
    if worker ∈ active then [procedure.started, procedure.complete] else []
  reports _ := []

def next (procedure : Procedure) (round : Round) : Event → Round
  | .coordinate =>
      match round.performing.step? procedure round.states with
      | none => round
      | some (states, performing) =>
          { round with states := states, performing := performing }
  | .report worker =>
      { round with
        due := Function.update round.due worker (round.due worker).tail
        reports := Function.update round.reports worker
          (round.reports worker ++ (round.due worker).head?.toList) }
  | .apply worker =>
      match round.reports worker with
      | [] => round
      | message :: rest =>
          { round with
            states := workerCommInbound round.states worker message
            reports := Function.update round.reports worker rest }

def step (procedure : Procedure) (round : Round) (event : Event) :
    Except Empty Round := .ok (round.next procedure event)

def allowed (procedure : Procedure) (round : Round) : Event → Prop
  | .coordinate => (round.performing.step? procedure round.states).isSome
  | .report worker =>
      round.due worker ≠ [] ∧ worker ∉ round.performing.untold
  | .apply worker => round.reports worker ≠ []

def owes (round : Round) (worker : WorkerId) : List WorkerMessage :=
  round.reports worker ++ round.due worker

/-- There are workers; the last worker to have started does so while the first
wait is registered and no worker has completed; the last worker to have
completed does so while the second wait is registered. -/
def timely (procedure : Procedure) (active : IndexSet WorkerId)
    (round : Round) : Event → Prop
  | .coordinate => round.performing = .sending [] → active.items ≠ []
  | .report _ => True
  | .apply worker =>
      (round.owes worker = [procedure.started, procedure.complete] →
        (∀ other ∈ active, other ≠ worker →
          round.owes other ≠ [procedure.started, procedure.complete]) →
        (∃ receiver, round.performing = .awaitStarted receiver) ∧
          ∀ other ∈ active, other ≠ worker → round.owes other ≠ []) ∧
      (round.owes worker = [procedure.complete] →
        (∀ other ∈ active, other ≠ worker → round.owes other = []) →
        ∃ receiver, round.performing = .awaitRunning receiver)

end Round

/-! ### Where the workers are -/

theorem allPhase_iff {states : States} {phase : WorkerPhase} :
    allPhase phase states.store.entries = true ↔
      ∀ worker state, states.store.get? worker = some state →
        state.phase = phase := by
  simp only [allPhase, List.all_eq_true, decide_eq_true_eq]
  constructor
  · intro all worker state found
    exact all _ (IndexMap.get?_eq_some.mp found)
  · rintro all ⟨worker, state⟩ listed
    exact all worker state (IndexMap.get?_eq_some.mpr listed)

namespace Round

/-- What a worker owes and the phase the coordinator knows it to be in. -/
inductive Owing (procedure : Procedure) (owed : List WorkerMessage)
    (phase : WorkerPhase) : Prop
  | both (isOwed : owed = [procedure.started, procedure.complete])
      (other : phase ≠ procedure.phase)
  | one (isOwed : owed = [procedure.complete]) (same : phase = procedure.phase)
  | nothing (isOwed : owed = []) (same : phase = .running)

structure Sound (procedure : Procedure) (active : IndexSet WorkerId)
    (round : Round) : Prop where
  owing : ∀ worker ∈ active, ∃ state,
    round.states.store.get? worker = some state ∧
      Owing procedure (round.owes worker) state.phase
  others : ∀ worker, worker ∉ active →
    round.states.store.get? worker = none ∧ round.owes worker = []

variable {procedure : Procedure} {active : IndexSet WorkerId} {round : Round}

theorem Owing.apply {message : WorkerMessage} {rest : List WorkerMessage}
    {state : WorkerState} (owing : Owing procedure (message :: rest) state.phase) :
    ∃ apply, message.apply? = some apply ∧
      Owing procedure rest (apply state).phase := by
  cases owing with
  | both isOwed other =>
      obtain ⟨rfl, rfl⟩ := List.cons.inj isOwed
      cases procedure <;> exact ⟨_, rfl, .one rfl rfl⟩
  | one isOwed same =>
      obtain ⟨rfl, rfl⟩ := List.cons.inj isOwed
      cases procedure <;> exact ⟨_, rfl, .nothing rfl rfl⟩
  | nothing isOwed same => cases isOwed

theorem Owing.phase_of_both {phase : WorkerPhase}
    (owing : Owing procedure [procedure.started, procedure.complete] phase) :
    phase ≠ procedure.phase := by
  cases owing with
  | both isOwed other => exact other
  | one isOwed same => simp at isOwed
  | nothing isOwed same => simp at isOwed

theorem Owing.one_iff {owed : List WorkerMessage} {phase : WorkerPhase}
    (owing : Owing procedure owed phase) :
    owed = [procedure.complete] ↔ phase = procedure.phase := by
  cases owing with
  | both isOwed other => simp [isOwed, other]
  | one isOwed same => simp [isOwed, same]
  | nothing isOwed same =>
      simp [isOwed, same, Ne.symm procedure.phase_ne_running]

theorem Owing.nothing_of_running {owed : List WorkerMessage}
    (owing : Owing procedure owed .running)
    (begun : owed ≠ [procedure.started, procedure.complete]) : owed = [] := by
  cases owing with
  | both isOwed other => exact absurd isOwed begun
  | one isOwed same => exact absurd same.symm procedure.phase_ne_running
  | nothing isOwed same => exact isOwed

theorem Sound.start {states : States}
    (listed : ∀ worker, worker ∈ states.store ↔ worker ∈ active)
    (others : ∀ worker state, states.store.get? worker = some state →
      state.phase ≠ procedure.phase) :
    (start procedure active states).Sound procedure active := by
  constructor
  · intro worker isActive
    obtain ⟨state, found⟩ :=
      IndexMap.exists_get?_of_mem ((listed worker).mpr isActive)
    refine ⟨state, found, ?_⟩
    simp only [owes, Round.start, isActive, if_true, List.nil_append]
    exact .both rfl (others worker state found)
  · intro worker inactive
    refine ⟨IndexMap.get?_eq_none.mpr (mt (listed worker).mp inactive), ?_⟩
    simp [owes, Round.start, inactive]

structure Applied (procedure : Procedure) (round : Round) (worker : WorkerId)
    (message : WorkerMessage) (state : WorkerState) (next : Round) : Prop where
  performing : next.performing = round.performing
  owed : round.owes worker = message :: next.owes worker
  others : ∀ other, other ≠ worker → next.owes other = round.owes other
  states : ∃ store, next.states = round.states.change store ∧
    store.get? worker = some state ∧
    ∀ other, other ≠ worker →
      store.get? other = round.states.store.get? other
  owing : Owing procedure (next.owes worker) state.phase

theorem Sound.applied (sound : round.Sound procedure active)
    {worker : WorkerId} (allowed : round.allowed procedure (.apply worker)) :
    worker ∈ active ∧ ∃ message state, Applied procedure round worker message
      state (round.next procedure (.apply worker)) := by
  cases queued : round.reports worker with
  | nil => exact absurd queued allowed
  | cons message rest =>
      have isActive : worker ∈ active := by
        by_contra inactive
        have none := (sound.others worker inactive).2
        simp [owes, queued] at none
      refine ⟨isActive, message, ?_⟩
      obtain ⟨state, found, owing⟩ := sound.owing worker isActive
      have owed : round.owes worker = message :: (rest ++ round.due worker) := by
        simp [owes, queued]
      rw [owed] at owing
      obtain ⟨apply, isApply, owing⟩ := owing.apply
      have later : (round.next procedure (.apply worker)).owes worker =
          rest ++ round.due worker := by
        simp [next, queued, owes]
      refine ⟨apply state, ?_, ?_, ?_, ?_, ?_⟩
      · simp only [next, queued]
      · rw [owed, later]
      · intro other different
        simp [next, queued, owes, different]
      · refine ⟨round.states.store.insert worker (apply state), ?_,
          IndexMap.get?_insert_self .., ?_⟩
        · simp only [next, queued, workerCommInbound, isApply,
            WatchMap.applyOrDefault, found, Option.getD_some]
        · intro other different
          exact IndexMap.get?_insert_of_ne _ _ different
      · rw [later]
        exact owing

theorem owes_report (worker other : WorkerId) :
    (round.next procedure (.report worker)).owes other = round.owes other := by
  by_cases same : other = worker
  · subst same
    simp only [next, owes, Function.update_self]
    cases round.due other <;> simp
  · simp [next, owes, same]

theorem coordinated (allowed : round.allowed procedure .coordinate) :
    ∃ states performing, round.next procedure .coordinate =
        { round with states := states, performing := performing } ∧
      round.performing.Steps procedure round.states states performing := by
  obtain ⟨⟨states, performing⟩, stepped⟩ := Option.isSome_iff_exists.mp allowed
  refine ⟨states, performing, ?_, Performing.steps_of_step? stepped⟩
  simp only [next, stepped]

theorem Sound.step (sound : round.Sound procedure active) {event : Event}
    (allowed : round.allowed procedure event) :
    (round.next procedure event).Sound procedure active := by
  cases event with
  | coordinate =>
      obtain ⟨states, performing, isNext, steps⟩ := coordinated allowed
      rw [isNext]
      constructor
      · intro worker isActive
        rw [steps.store]
        exact sound.owing worker isActive
      · intro worker inactive
        rw [steps.store]
        exact sound.others worker inactive
  | report worker =>
      constructor
      · intro other isActive
        rw [owes_report]
        exact sound.owing other isActive
      · intro other inactive
        rw [owes_report]
        exact sound.others other inactive
  | apply worker =>
      obtain ⟨isActive, message, state, applied⟩ := sound.applied allowed
      obtain ⟨store, states, found, same⟩ := applied.states
      constructor
      · intro other isActive
        by_cases isWorker : other = worker
        · subst isWorker
          exact ⟨state, by simpa [states] using found, applied.owing⟩
        · rw [applied.others other isWorker, states, WatchMap.store_change,
            same other isWorker]
          exact sound.owing other isActive
      · intro other inactive
        have isOther : other ≠ worker := by
          rintro rfl
          exact inactive isActive
        rw [applied.others other isOther, states, WatchMap.store_change,
          same other isOther]
        exact sound.others other inactive

/-! ### In time and late -/

/-- The coordinator waits for a worker which has not reported yet. -/
inductive OnTime (procedure : Procedure) (active : IndexSet WorkerId)
    (states : States) (owes : WorkerId → List WorkerMessage) :
    Performing → Prop
  | sending {rest : List WorkerId}
      (behind : active.items = [] ∨
        ∃ worker ∈ active,
          owes worker = [procedure.started, procedure.complete]) :
      OnTime procedure active states owes (.sending rest)
  | awaitStarted {receiver : Nat}
      (pends : states.Pends receiver (allPhase procedure.phase))
      (behind : ∃ worker ∈ active,
        owes worker = [procedure.started, procedure.complete]) :
      OnTime procedure active states owes (.awaitStarted receiver)
  | started {receiver : Nat} (done : receiver ∈ states.completed)
      (begun : ∀ worker ∈ active,
        owes worker ≠ [procedure.started, procedure.complete])
      (behind : ∃ worker ∈ active, owes worker ≠ []) :
      OnTime procedure active states owes (.awaitStarted receiver)
  | registerRunning
      (begun : ∀ worker ∈ active,
        owes worker ≠ [procedure.started, procedure.complete])
      (behind : ∃ worker ∈ active, owes worker ≠ []) :
      OnTime procedure active states owes .registerRunning
  | awaitRunning {receiver : Nat}
      (pends : states.Pends receiver (allPhase .running))
      (begun : ∀ worker ∈ active,
        owes worker ≠ [procedure.started, procedure.complete])
      (behind : ∃ worker ∈ active, owes worker ≠ []) :
      OnTime procedure active states owes (.awaitRunning receiver)
  | running {receiver : Nat} (done : receiver ∈ states.completed)
      (finished : ∀ worker ∈ active, owes worker = []) :
      OnTime procedure active states owes (.awaitRunning receiver)
  | returned (finished : ∀ worker ∈ active, owes worker = []) :
      OnTime procedure active states owes .returned

/-- The coordinator waits for reports which were made before. -/
inductive Late (procedure : Procedure) (active : IndexSet WorkerId)
    (states : States) (owes : WorkerId → List WorkerMessage) :
    Performing → Prop
  | sending {rest : List WorkerId}
      (begun : ∀ worker ∈ active,
        owes worker ≠ [procedure.started, procedure.complete]) :
      Late procedure active states owes (.sending rest)
  | awaitStarted {receiver : Nat}
      (begun : ∀ worker ∈ active,
        owes worker ≠ [procedure.started, procedure.complete])
      (pends : states.Pends receiver (allPhase procedure.phase)) :
      Late procedure active states owes (.awaitStarted receiver)
  | started {receiver : Nat} (finished : ∀ worker ∈ active, owes worker = []) :
      Late procedure active states owes (.awaitStarted receiver)
  | registerRunning (finished : ∀ worker ∈ active, owes worker = []) :
      Late procedure active states owes .registerRunning
  | awaitRunning {receiver : Nat}
      (finished : ∀ worker ∈ active, owes worker = [])
      (pends : states.Pends receiver (allPhase .running)) :
      Late procedure active states owes (.awaitRunning receiver)

theorem OnTime.coordinate {states states' : States}
    {owes : WorkerId → List WorkerMessage} {performing performing' : Performing}
    (onTime : OnTime procedure active states owes performing)
    (steps : performing.Steps procedure states states' performing')
    (timely : performing = .sending [] → active.items ≠ []) :
    OnTime procedure active states' owes performing' := by
  cases steps with
  | tell =>
      cases onTime with
      | sending behind => exact .sending behind
  | awaitStarted =>
      cases onTime with
      | sending behind =>
          exact .awaitStarted WatchMap.pends_notify
            (behind.resolve_left (timely rfl))
  | started done =>
      cases onTime with
      | awaitStarted pends => exact absurd done pends.not_completed
      | started _ begun behind => exact .registerRunning begun behind
  | awaitRunning =>
      cases onTime with
      | registerRunning begun behind =>
          exact .awaitRunning WatchMap.pends_notify begun behind
  | running done =>
      cases onTime with
      | awaitRunning pends => exact absurd done pends.not_completed
      | running _ finished => exact .returned finished

theorem Late.coordinate {states states' : States}
    {owes : WorkerId → List WorkerMessage} {performing performing' : Performing}
    (late : Late procedure active states owes performing)
    (steps : performing.Steps procedure states states' performing') :
    Late procedure active states' owes performing' := by
  cases steps with
  | tell =>
      cases late with
      | sending begun => exact .sending begun
  | awaitStarted =>
      cases late with
      | sending begun => exact .awaitStarted begun WatchMap.pends_notify
  | started done =>
      cases late with
      | awaitStarted _ pends => exact absurd done pends.not_completed
      | started finished => exact .registerRunning finished
  | awaitRunning =>
      cases late with
      | registerRunning finished =>
          exact .awaitRunning finished WatchMap.pends_notify
  | running done =>
      cases late with
      | awaitRunning _ pends => exact absurd done pends.not_completed

/-! An application of a report. -/

section

variable {next : Round} {worker : WorkerId} {message : WorkerMessage}
  {state : WorkerState}

theorem Sound.allPhase (sound : round.Sound procedure active)
    {phase : WorkerPhase}
    (inPhase : ∀ worker ∈ active, ∀ state,
      Owing procedure (round.owes worker) state →
        state = phase) :
    allPhase phase round.states.store.entries = true := by
  rw [allPhase_iff]
  intro worker state found
  by_cases isActive : worker ∈ active
  · obtain ⟨known, isKnown, owing⟩ := sound.owing worker isActive
    obtain rfl := Option.some.inj (isKnown.symm.trans found)
    exact inPhase worker isActive _ owing
  · rw [(sound.others worker isActive).1] at found
    cases found

theorem Sound.of_allPhase (sound : round.Sound procedure active)
    {phase : WorkerPhase}
    (all : Coordinator.allPhase phase round.states.store.entries = true)
    {worker : WorkerId} (isActive : worker ∈ active) :
    Owing procedure (round.owes worker) phase := by
  obtain ⟨state, found, owing⟩ := sound.owing worker isActive
  rw [allPhase_iff.mp all worker state found] at owing
  exact owing

theorem Applied.completed (applied : Applied procedure round worker message
      state next) {receiver : Nat}
    {condition : List (WorkerId × WorkerState) → Bool}
    (pends : round.states.Pends receiver condition) :
    if condition next.states.store.entries then
      receiver ∈ next.states.completed
    else next.states.Pends receiver condition := by
  obtain ⟨store, states, -, -⟩ := applied.states
  rw [states]
  exact pends.change _

theorem Applied.kept (applied : Applied procedure round worker message state
      next) {receiver : Nat} (done : receiver ∈ round.states.completed) :
    receiver ∈ next.states.completed := by
  obtain ⟨store, states, -, -⟩ := applied.states
  rw [states, WatchMap.completed_change]
  exact .inl done

theorem Applied.which (applied : Applied procedure round worker message state
      next) (sound : round.Sound procedure active)
    (isActive : worker ∈ active) :
    (round.owes worker = [procedure.started, procedure.complete] ∧
      next.owes worker = [procedure.complete]) ∨
    (round.owes worker = [procedure.complete] ∧ next.owes worker = []) := by
  obtain ⟨known, -, owing⟩ := sound.owing worker isActive
  have owed := applied.owed
  cases owing with
  | both isOwed =>
      obtain ⟨-, rest⟩ := List.cons.inj (isOwed.symm.trans owed)
      exact .inl ⟨isOwed, rest.symm⟩
  | one isOwed =>
      obtain ⟨-, rest⟩ := List.cons.inj (isOwed.symm.trans owed)
      exact .inr ⟨isOwed, rest.symm⟩
  | nothing isOwed => cases isOwed.symm.trans owed

theorem Applied.begun (applied : Applied procedure round worker message state
      next) (sound : round.Sound procedure active)
    (isActive : worker ∈ active)
    (begun : ∀ other ∈ active, other ≠ worker →
      round.owes other ≠ [procedure.started, procedure.complete]) :
    ∀ other ∈ active,
      next.owes other ≠ [procedure.started, procedure.complete] := by
  intro other otherActive
  by_cases same : other = worker
  · subst same
    obtain ⟨-, one⟩ | ⟨-, none⟩ := applied.which sound isActive
    · rw [one]
      simp
    · rw [none]
      simp
  · rw [applied.others other same]
    exact begun other otherActive same

theorem Applied.behind (applied : Applied procedure round worker message state
      next) (sound : round.Sound procedure active)
    (isActive : worker ∈ active) :
    (∃ other ∈ active, next.owes other ≠ []) ∨
      round.owes worker = [procedure.complete] ∧
      (∀ other ∈ active, other ≠ worker → round.owes other = []) ∧
      ∀ other ∈ active, next.owes other = [] := by
  by_contra none
  push Not at none
  obtain ⟨finished, more⟩ := none
  obtain ⟨-, one⟩ | ⟨last, -⟩ := applied.which sound isActive
  · rw [finished worker isActive] at one
    cases one
  · obtain ⟨other, otherActive, owes⟩ := more last fun other otherActive isOther => by
      rw [← applied.others other isOther]
      exact finished other otherActive
    exact owes (finished other otherActive)

/-- The last worker begins before any other is through. -/
theorem Applied.owes_complete
    (applied : Applied procedure round worker message state next)
    (sound : round.Sound procedure active) (isActive : worker ∈ active)
    (both : round.owes worker = [procedure.started, procedure.complete])
    (others : ∀ other ∈ active, other ≠ worker →
      round.owes other ≠ [procedure.started, procedure.complete])
    (notDone : ∀ other ∈ active, other ≠ worker → round.owes other ≠ []) :
    ∀ other ∈ active, next.owes other = [procedure.complete] := by
  intro other otherActive
  by_cases isWorker : other = worker
  · subst isWorker
    obtain ⟨-, one⟩ | ⟨one, -⟩ := applied.which sound isActive
    · exact one
    · simp [both] at one
  · rw [applied.others other isWorker]
    obtain ⟨known, -, owing⟩ := sound.owing other otherActive
    cases owing with
    | both isOwed => exact absurd isOwed (others other otherActive isWorker)
    | one isOwed => exact isOwed
    | nothing isOwed => exact absurd isOwed (notDone other otherActive isWorker)

theorem OnTime.apply
    (onTime : OnTime procedure active round.states round.owes round.performing)
    (sound : round.Sound procedure active)
    (allowed : round.allowed procedure (.apply worker))
    (timely : round.timely procedure active (.apply worker)) :
    OnTime procedure active (round.next procedure (.apply worker)).states
      (round.next procedure (.apply worker)).owes
      (round.next procedure (.apply worker)).performing := by
  obtain ⟨isActive, message, state, applied⟩ := sound.applied allowed
  have sound' := sound.step allowed
  generalize round.next procedure (.apply worker) = next at applied sound' ⊢
  rw [applied.performing]
  obtain ⟨startedLast, completeLast⟩ := timely
  -- someone has not begun yet, or it was the last one to begin
  have first : (∃ other ∈ active, next.owes other =
        [procedure.started, procedure.complete]) ∨
      ∀ other ∈ active, other ≠ worker → round.owes other ≠
        [procedure.started, procedure.complete] := by
    by_contra neither
    push Not at neither
    obtain ⟨none, other, otherActive, isOther, both⟩ := neither
    exact none other otherActive ((applied.others other isOther).trans both)
  generalize isBefore : round.performing = performing at onTime
  cases onTime with
  | sending behind =>
      refine .sending (.inr ?_)
      refine first.resolve_right fun others => ?_
      obtain empty | ⟨other, otherActive, both⟩ := behind
      · rw [IndexSet.mem_def, empty] at isActive
        cases isActive
      · have isWorker : other = worker := by
          by_contra isOther
          exact others other otherActive isOther both
        subst isWorker
        obtain ⟨⟨receiver, waits⟩, -⟩ := startedLast both others
        rw [isBefore] at waits
        cases waits
  | awaitStarted pends behind =>
      have fires := applied.completed pends
      cases first with
      | inl behind' =>
          rw [if_neg] at fires
          · exact .awaitStarted fires behind'
          · intro all
            obtain ⟨other, otherActive, both⟩ := behind'
            have owing := sound'.of_allPhase all otherActive
            rw [both] at owing
            exact owing.phase_of_both rfl
      | inr others =>
          have both : round.owes worker =
              [procedure.started, procedure.complete] := by
            obtain ⟨other, otherActive, both⟩ := behind
            have isWorker : other = worker := by
              by_contra isOther
              exact others other otherActive isOther both
            rwa [← isWorker]
          obtain ⟨-, notDone⟩ := startedLast both others
          have one := applied.owes_complete sound isActive both others notDone
          rw [if_pos] at fires
          · exact .started fires (applied.begun sound isActive others)
              ⟨worker, isActive, by simp [one worker isActive]⟩
          · apply sound'.allPhase
            intro other otherActive phase owing
            exact owing.one_iff.mp (one other otherActive)
  | started done begun behind =>
      have begun := applied.begun sound isActive fun other otherActive _ =>
        begun other otherActive
      obtain behind' | ⟨last, others, -⟩ := applied.behind sound isActive
      · exact .started (applied.kept done) begun behind'
      · obtain ⟨receiver, waits⟩ := completeLast last others
        rw [isBefore] at waits
        cases waits
  | registerRunning begun behind =>
      have begun := applied.begun sound isActive fun other otherActive _ =>
        begun other otherActive
      obtain behind' | ⟨last, others, -⟩ := applied.behind sound isActive
      · exact .registerRunning begun behind'
      · obtain ⟨receiver, waits⟩ := completeLast last others
        rw [isBefore] at waits
        cases waits
  | awaitRunning pends begun behind =>
      have begun := applied.begun sound isActive fun other otherActive _ =>
        begun other otherActive
      have fires := applied.completed pends
      split at fires
      next all =>
        refine .running fires fun other otherActive => ?_
        exact (sound'.of_allPhase all otherActive).nothing_of_running
          (begun other otherActive)
      next some =>
        refine .awaitRunning fires begun ?_
        refine (applied.behind sound isActive).resolve_right ?_
        rintro ⟨-, -, finished⟩
        apply some
        apply sound'.allPhase
        intro other otherActive phase owing
        cases owing with
        | both isOwed => simp [finished other otherActive] at isOwed
        | one isOwed => simp [finished other otherActive] at isOwed
        | nothing isOwed same => exact same
  | running done finished =>
      have owed := applied.owed
      rw [finished worker isActive] at owed
      cases owed
  | returned finished =>
      have owed := applied.owed
      rw [finished worker isActive] at owed
      cases owed

theorem Applied.pends (applied : Applied procedure round worker message state
      next) (sound' : next.Sound procedure active) {other : WorkerId}
    (otherActive : other ∈ active) (finished : next.owes other = [])
    {receiver : Nat}
    (pends : round.states.Pends receiver
      (Coordinator.allPhase procedure.phase)) :
    next.states.Pends receiver (Coordinator.allPhase procedure.phase) := by
  have fires := applied.completed pends
  rwa [if_neg] at fires
  intro all
  have one := (sound'.of_allPhase all otherActive).one_iff.mpr rfl
  rw [finished] at one
  cases one

theorem Late.apply
    (late : Late procedure active round.states round.owes round.performing)
    (sound : round.Sound procedure active)
    (allowed : round.allowed procedure (.apply worker)) :
    Late procedure active (round.next procedure (.apply worker)).states
      (round.next procedure (.apply worker)).owes
      (round.next procedure (.apply worker)).performing := by
  obtain ⟨isActive, message, state, applied⟩ := sound.applied allowed
  have sound' := sound.step allowed
  generalize round.next procedure (.apply worker) = next at applied sound' ⊢
  rw [applied.performing]
  have unfinished : round.owes worker ≠ [] := by
    rw [applied.owed]
    simp
  generalize round.performing = performing at late
  cases late with
  | sending begun =>
      exact .sending (applied.begun sound isActive fun other otherActive _ =>
        begun other otherActive)
  | awaitStarted begun pends =>
      have begun' := applied.begun sound isActive fun other otherActive _ =>
        begun other otherActive
      refine .awaitStarted begun' (applied.pends sound' isActive ?_ pends)
      obtain ⟨both, -⟩ | ⟨-, finished⟩ := applied.which sound isActive
      · exact absurd both (begun worker isActive)
      · exact finished
  | started finished => exact absurd (finished worker isActive) unfinished
  | registerRunning finished =>
      exact absurd (finished worker isActive) unfinished
  | awaitRunning finished pends =>
      exact absurd (finished worker isActive) unfinished

/-- After a report at the wrong time the coordinator waits in vain. -/
theorem OnTime.late
    (onTime : OnTime procedure active round.states round.owes round.performing)
    (sound : round.Sound procedure active)
    (allowed : round.allowed procedure (.apply worker))
    (untimely : ¬round.timely procedure active (.apply worker)) :
    Late procedure active (round.next procedure (.apply worker)).states
      (round.next procedure (.apply worker)).owes
      (round.next procedure (.apply worker)).performing := by
  obtain ⟨isActive, message, state, applied⟩ := sound.applied allowed
  have sound' := sound.step allowed
  generalize round.next procedure (.apply worker) = next at applied sound' ⊢
  rw [applied.performing]
  simp only [timely, not_and_or] at untimely
  cases untimely with
  | inl early =>
      simp only [Classical.not_imp, not_and_or] at early
      obtain ⟨both, others, early⟩ := early
      have begun := applied.begun sound isActive others
      generalize isBefore : round.performing = performing at onTime early
      cases onTime with
      | sending behind => exact .sending begun
      | awaitStarted pends behind =>
          cases early with
          | inl notWaiting => exact absurd ⟨_, rfl⟩ notWaiting
          | inr done =>
              push Not at done
              obtain ⟨other, otherActive, isOther, finished⟩ := done
              refine .awaitStarted begun
                (applied.pends sound' otherActive ?_ pends)
              rw [applied.others other isOther]
              exact finished
      | started done begun behind => exact absurd both (begun worker isActive)
      | registerRunning begun behind =>
          exact absurd both (begun worker isActive)
      | awaitRunning pends begun behind =>
          exact absurd both (begun worker isActive)
      | running done finished =>
          simp [finished worker isActive] at both
      | returned finished => simp [finished worker isActive] at both
  | inr early =>
      simp only [Classical.not_imp] at early
      obtain ⟨last, others, notWaiting⟩ := early
      have finished : ∀ other ∈ active, next.owes other = [] := by
        intro other otherActive
        by_cases isWorker : other = worker
        · subst isWorker
          obtain ⟨both, -⟩ | ⟨-, none⟩ := applied.which sound isActive
          · simp [both] at last
          · exact none
        · rw [applied.others other isWorker]
          exact others other otherActive isWorker
      have begun : ∀ other ∈ active, round.owes other ≠
          [procedure.started, procedure.complete] := by
        intro other otherActive
        by_cases isWorker : other = worker
        · subst isWorker
          simp [last]
        · simp [others other otherActive isWorker]
      generalize isBefore : round.performing = performing at onTime notWaiting
      cases onTime with
      | sending behind =>
          obtain empty | ⟨other, otherActive, both⟩ := behind
          · rw [IndexSet.mem_def, empty] at isActive
            cases isActive
          · exact absurd both (begun other otherActive)
      | awaitStarted pends behind =>
          obtain ⟨other, otherActive, both⟩ := behind
          exact absurd both (begun other otherActive)
      | started => exact .started finished
      | registerRunning => exact .registerRunning finished
      | awaitRunning => exact absurd ⟨_, rfl⟩ notWaiting
      | running => exact absurd ⟨_, rfl⟩ notWaiting
      | returned finished => simp [finished worker isActive] at last

end

/-! ### Every run -/

section

variable {next last : Round} {states : States} {event : Event}

theorem OnTime.step
    (onTime : OnTime procedure active round.states round.owes round.performing)
    (sound : round.Sound procedure active)
    (allowed : round.allowed procedure event)
    (timely : round.timely procedure active event) :
    OnTime procedure active (round.next procedure event).states
      (round.next procedure event).owes
      (round.next procedure event).performing := by
  cases event with
  | coordinate =>
      obtain ⟨states, performing, isNext, steps⟩ := coordinated allowed
      rw [isNext]
      exact onTime.coordinate steps timely
  | report worker =>
      have same : (round.next procedure (.report worker)).owes = round.owes :=
        funext fun other => owes_report worker other
      rw [same]
      exact onTime
  | apply worker => exact onTime.apply sound allowed timely

theorem Late.step
    (late : Late procedure active round.states round.owes round.performing)
    (sound : round.Sound procedure active)
    (allowed : round.allowed procedure event) :
    Late procedure active (round.next procedure event).states
      (round.next procedure event).owes
      (round.next procedure event).performing := by
  cases event with
  | coordinate =>
      obtain ⟨states, performing, isNext, steps⟩ := coordinated allowed
      rw [isNext]
      exact late.coordinate steps
  | report worker =>
      have same : (round.next procedure (.report worker)).owes = round.owes :=
        funext fun other => owes_report worker other
      rw [same]
      exact late
  | apply worker => exact late.apply sound allowed

theorem OnTime.untimely
    (onTime : OnTime procedure active round.states round.owes round.performing)
    (sound : round.Sound procedure active)
    (allowed : round.allowed procedure event)
    (untimely : ¬round.timely procedure active event) :
    Late procedure active (round.next procedure event).states
      (round.next procedure event).owes
      (round.next procedure event).performing := by
  cases event with
  | coordinate =>
      obtain ⟨states, performing, isNext, steps⟩ := coordinated allowed
      simp only [timely, Classical.not_imp, ne_eq, not_not] at untimely
      obtain ⟨isSending, none⟩ := untimely
      rw [isSending] at steps
      rw [isNext]
      cases steps with
      | awaitStarted =>
          refine .started fun worker isActive => ?_
          rw [IndexSet.mem_def, none] at isActive
          cases isActive
  | report worker => exact absurd trivial untimely
  | apply worker => exact onTime.late sound allowed untimely

theorem reaches_onTime
    (listed : ∀ worker, worker ∈ states.store ↔ worker ∈ active)
    (others : ∀ worker state, states.store.get? worker = some state →
      state.phase ≠ procedure.phase)
    (run : Reaches (step procedure)
      (fun round event => round.allowed procedure event ∧
        round.timely procedure active event)
      (start procedure active states) round) :
    round.Sound procedure active ∧
      OnTime procedure active round.states round.owes round.performing := by
  refine run.invariant (fun round => round.Sound procedure active ∧
    OnTime procedure active round.states round.owes round.performing) ?_ ?_
  · refine ⟨.start listed others, .sending ?_⟩
    cases items : active.items with
    | nil => exact .inl rfl
    | cons first rest =>
        have isActive : first ∈ active := by simp [IndexSet.mem_def, items]
        exact .inr ⟨first, isActive, by simp [owes, start, isActive]⟩
  · rintro round event next _ ⟨sound, onTime⟩ ⟨allowed, timely⟩ stepped
    obtain rfl := Except.ok.inj stepped
    exact ⟨sound.step allowed, onTime.step sound allowed timely⟩

/-- When every report comes in time the coordinator returns once all of them
were applied; after the first one which does not it never returns. -/
theorem returns_iff_timely
    (listed : ∀ worker, worker ∈ states.store ↔ worker ∈ active)
    (others : ∀ worker state, states.store.get? worker = some state →
      state.phase ≠ procedure.phase)
    (run : Reaches (step procedure)
      (fun round event => round.allowed procedure event ∧
        round.timely procedure active event)
      (start procedure active states) round) :
    ((∀ worker ∈ active, round.owes worker = []) →
      ¬round.allowed procedure .coordinate → round.performing = .returned) ∧
    ∀ event last, round.allowed procedure event →
      ¬round.timely procedure active event →
      Reaches (step procedure) (allowed procedure)
        (round.next procedure event) last →
      last.performing ≠ .returned := by
  obtain ⟨sound, onTime⟩ := reaches_onTime listed others run
  constructor
  · intro finished waits
    have waits : (round.performing.step? procedure round.states).isSome =
        false := by simpa [allowed] using waits
    generalize isBefore : round.performing = performing at onTime waits
    cases onTime with
    | @sending rest behind => cases rest <;> cases waits
    | awaitStarted pends behind =>
        obtain ⟨worker, isActive, both⟩ := behind
        simp [finished worker isActive] at both
    | started done begun behind =>
        obtain ⟨worker, isActive, unfinished⟩ := behind
        exact absurd (finished worker isActive) unfinished
    | registerRunning begun behind => cases waits
    | awaitRunning pends begun behind =>
        obtain ⟨worker, isActive, unfinished⟩ := behind
        exact absurd (finished worker isActive) unfinished
    | running done _ => simp [Performing.step?, done] at waits
    | returned _ => rfl
  · intro event last permitted untimely rest
    have both : last.Sound procedure active ∧
        Late procedure active last.states last.owes last.performing := by
      refine rest.invariant (fun round => round.Sound procedure active ∧
        Late procedure active round.states round.owes round.performing)
        ⟨sound.step permitted, onTime.untimely sound permitted untimely⟩ ?_
      rintro round event next _ ⟨sound, late⟩ allowed stepped
      obtain rfl := Except.ok.inj stepped
      exact ⟨sound.step allowed, late.step sound allowed⟩
    intro isReturned
    have late := both.2
    rw [isReturned] at late
    cases late

end

/-! Two workers take a snapshot. -/

def pair : IndexSet WorkerId := IndexSet.ofList [0, 1]

def pairStates : States :=
  WatchMap.ofStore ⟨[(0, { phase := .running }), (1, { phase := .running })],
    by decide⟩

instance (round : Round) (procedure : Procedure) :
    (event : Event) → Decidable (round.allowed procedure event)
  | .coordinate => inferInstanceAs (Decidable
      ((round.performing.step? procedure round.states).isSome = true))
  | .report worker => inferInstanceAs (Decidable
      (round.due worker ≠ [] ∧ worker ∉ round.performing.untold))
  | .apply worker => inferInstanceAs (Decidable (round.reports worker ≠ []))

instance (performing : Performing) :
    Decidable (∃ receiver, performing = .awaitStarted receiver) :=
  match performing with
  | .awaitStarted receiver => isTrue ⟨receiver, rfl⟩
  | .sending _ | .registerRunning | .awaitRunning _ | .returned =>
      isFalse (by simp)

instance (performing : Performing) :
    Decidable (∃ receiver, performing = .awaitRunning receiver) :=
  match performing with
  | .awaitRunning receiver => isTrue ⟨receiver, rfl⟩
  | .sending _ | .awaitStarted _ | .registerRunning | .returned =>
      isFalse (by simp)

instance (procedure : Procedure) (active : IndexSet WorkerId) (round : Round) :
    (event : Event) → Decidable (round.timely procedure active event)
  | .coordinate => inferInstanceAs (Decidable
      (round.performing = .sending [] → active.items ≠ []))
  | .report _ => isTrue trivial
  | .apply worker => inferInstanceAs (Decidable (
      (round.owes worker = [procedure.started, procedure.complete] →
        (∀ other ∈ active.items, other ≠ worker →
          round.owes other ≠ [procedure.started, procedure.complete]) →
        (∃ receiver, round.performing = .awaitStarted receiver) ∧
          ∀ other ∈ active.items, other ≠ worker → round.owes other ≠ []) ∧
      (round.owes worker = [procedure.complete] →
        (∀ other ∈ active.items, other ≠ worker → round.owes other = []) →
        ∃ receiver, round.performing = .awaitRunning receiver)))

def patientTrace : List Event :=
  [.coordinate, .coordinate, .coordinate, .report 0, .report 1, .apply 0,
    .apply 1, .coordinate, .coordinate, .report 0, .report 1, .apply 1,
    .apply 0, .coordinate]

@[irreducible] def patient : Round :=
  replay (step (.snapshot 0)) (start (.snapshot 0) pair pairStates)
    patientTrace

theorem patient_returns :
    (∀ worker ∈ pair, patient.owes worker = []) ∧
      patient.performing = .returned := by
  have run : Reaches (step (.snapshot 0))
      (fun round event => round.allowed (.snapshot 0) event ∧
        round.timely (.snapshot 0) pair event)
      (start (.snapshot 0) pair pairStates) patient := by
    unfold patient
    exact Follows.reaches patientTrace .refl (by decide +kernel)
  have finished : ∀ worker ∈ pair, patient.owes worker = [] := by
    have all : ∀ worker ∈ pair.items, patient.owes worker = [] := by
      decide +kernel
    exact all
  have running : ∀ worker state,
      pairStates.store.get? worker = some state → state.phase = .running := by
    apply allPhase_iff.mp
    decide
  refine ⟨finished, (returns_iff_timely (fun _ => Iff.rfl) ?_ run).1 finished
    (by decide +kernel)⟩
  intro worker state found
  rw [running worker state found]
  decide

/-- Worker 0 is through with the snapshot before worker 1 has begun. -/
def hastyTrace : List Event :=
  [.coordinate, .coordinate, .coordinate, .report 0, .report 0, .apply 0,
    .apply 0, .report 1, .report 1, .apply 1, .apply 1]

@[irreducible] def hasty : Round :=
  replay (step (.snapshot 0)) (start (.snapshot 0) pair pairStates) hastyTrace

theorem hasty_waits :
    Reaches (step (.snapshot 0)) (allowed (.snapshot 0))
      (start (.snapshot 0) pair pairStates) hasty ∧
    (∀ worker ∈ pair, hasty.owes worker = []) ∧
    ¬hasty.allowed (.snapshot 0) .coordinate ∧
    hasty.performing ≠ .returned := by
  refine ⟨?_, ?_, by decide +kernel, by decide +kernel⟩
  · unfold hasty
    exact Follows.reaches hastyTrace .refl (by decide +kernel)
  · have all : ∀ worker ∈ pair.items, hasty.owes worker = [] := by
      decide +kernel
    exact all

end Round

end Malstrom.Coordinator
