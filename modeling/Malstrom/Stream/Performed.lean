import Malstrom.Stream.Relays

namespace Malstrom.Stream

open Data Channels Keyed Operators

variable {K V T S E : Type}

/-! The loop of a procedure: the operators are scheduled until the worker has
the only clone of the procedure's message. -/

namespace Worker

section

variable [DecidableEq K] [MaybeTime T] [LT T] [DecidableLT T]

/-- `none` when the loop has not ended after so many tests, or a pass has not
within its bound. -/
def schedule (graph : Graph K V T S E) (workerId : WorkerId)
    (calls : Nat → Nat → Nat → Call E) (bound : Nat) :
    Nat → Nat → Worker K V T S E → Option (Except RunPanic (Worker K V T S E))
  | 0, _, _ => none
  | tests + 1, count, worker =>
      if worker.strongCount graph ≤ 1 then some (.ok worker)
      else
        match worker.step graph workerId (calls count) bound with
        | none => none
        | some (.error panic) => some (.error panic)
        | some (.ok next) =>
            schedule graph workerId calls bound tests (count + 1) next

/-- The procedures differ in the message which the root sends. -/
def perform (worker : Worker K V T S E) (graph : Graph K V T S E)
    (workerId : WorkerId) (calls : Nat → Nat → Nat → Call E)
    (bound tests : Nat) (procedure : Procedure) :
    Option (Except RunPanic (Worker K V T S E)) :=
  schedule graph workerId calls bound tests 0 (worker.begin graph procedure)

def performReconfig (worker : Worker K V T S E) (graph : Graph K V T S E)
    (workerId : WorkerId) (calls : Nat → Nat → Nat → Call E)
    (bound tests : Nat) (newSet : IndexSet WorkerId) (newVersion : Version) :
    Option (Except RunPanic (Worker K V T S E)) :=
  worker.perform graph workerId calls bound tests
    (.reconfig ⟨newSet, newVersion⟩)

def performSnapshot (worker : Worker K V T S E) (graph : Graph K V T S E)
    (workerId : WorkerId) (calls : Nat → Nat → Nat → Call E)
    (bound tests : Nat) : Option (Except RunPanic (Worker K V T S E)) :=
  worker.perform graph workerId calls bound tests .snapshot

def performSuspend (worker : Worker K V T S E) (graph : Graph K V T S E)
    (workerId : WorkerId) (calls : Nat → Nat → Nat → Call E)
    (bound tests : Nat) : Option (Except RunPanic (Worker K V T S E)) :=
  worker.perform graph workerId calls bound tests .suspend

end

end Worker

/-! ### One call in the loop -/

namespace Worker

variable [DecidableEq K] [MaybeTime T] [LT T] [DecidableLT T]
  {graph : Graph K V T S E} {worker next : Worker K V T S E}
  {workerId : WorkerId} {operator other : Nat} {procedure : Procedure}
  {calls : Nat → Nat → Call E} {count operators : Nat}

theorem Performing.called
    (performing : worker.Performing graph workerId procedure)
    (inGraph : operator < graph.size)
    (called : worker.call graph workerId calls operator count = .ok next) :
    next.Performing graph workerId procedure where
  undistributed := performing.undistributed
  ready := performing.ready.called inGraph called
  isCurrent := (act_step inGraph called).2.1.trans performing.isCurrent
  relays := performing.relays.act performing.undistributed
    performing.ready.sound performing.ready.kept
    (show Worker.works graph (.step operator _) from inGraph) called

theorem act_other {call : Call E} (different : other ≠ operator)
    (acted : worker.act graph workerId (.step operator call) = .ok next) :
    ∃ stepped, (worker.operators operator).step workerId call = .ok stepped ∧
      next.operators other = { worker.operators other with
        input := sendAll (worker.operators other).input
          (graph.routed (some operator) stepped.output other) } := by
  simp only [Worker.act] at acted
  split at acted
  next => simp at acted
  next stepped ran =>
    obtain rfl := Except.ok.inj acted
    exact ⟨stepped, ran, by simp [hand, install, different]⟩

/-- An operator with nothing left gives nothing on which the worker counts. -/
theorem step_quiet (performing : worker.Performing graph workerId procedure)
    (inGraph : operator < graph.size) (quiet : Quiet (worker.operators operator))
    {call : Call E} {stepped : Stepped K V T S E}
    (ran : (worker.operators operator).step workerId call = .ok stepped) :
    stepped.output.filter Message.isCounted = [] ∧ Quiet stepped.operator := by
  obtain ⟨logic, state, body, -⟩ := logic_body performing.undistributed
    performing.ready.sound performing.ready.kept inGraph
  obtain ⟨-, output, -⟩ := step_relays body ran
  obtain ⟨channels, consistent, -⟩ :=
    performing.ready.sound.wired operator inGraph
  obtain ⟨served, -, queues⟩ := StandardOperator.step_served consistent ran
  have taken : stepped.taken.toList.filter Message.isCounted = [] := by
    rw [List.filter_eq_nil_iff]
    intro message isTaken counted
    have linked := List.length_pos_iff.mpr (graph.linked operator inGraph)
    obtain ⟨channel, -, left⟩ := served.mem_left (channels ▸ linked)
      (Option.mem_toList.mp isTaken)
      (by cases message <;> simp_all [Message.isCounted, Message.epoch?])
    have queued : message ∈ ((worker.operators operator).input.queue
        channel).filter Message.isCounted := by
      rw [queues channel]
      exact List.mem_filter.mpr ⟨List.mem_append_left _ left, counted⟩
    rw [quiet.1 channel] at queued
    cases queued
  refine ⟨by rw [output, taken, ite_self], fun channel => ?_, ?_⟩
  · have before := quiet.1 channel
    rw [queues channel, List.filter_append, List.append_eq_nil_iff] at before
    exact before.2
  · obtain ⟨after, -⟩ :=
      (body ▸ (StandardOperator.step_ran consistent ran).1).of_logic
    rw [after]
    rfl

theorem Through.called (performing : worker.Performing graph workerId procedure)
    (through : worker.Through operators) (inGraph : operator < graph.size)
    (called : worker.call graph workerId calls operator count = .ok next) :
    next.Through operators := by
  intro other less
  rcases Nat.lt_trichotomy other operator with before | rfl | behind
  · rw [(act_step inGraph called).2.2 other before]
    exact through other less
  · obtain ⟨⟨stepped, ran, after⟩, -⟩ := act_step inGraph called
    rw [after]
    exact (step_quiet performing inGraph (through other less) ran).2
  · obtain ⟨stepped, ran, after⟩ := act_other (Nat.ne_of_gt behind) called
    have silent :=
      (step_quiet performing inGraph (through operator (by omega)) ran).1
    rw [after]
    refine ⟨fun channel => ?_, (through other less).2⟩
    have routed : (graph.routed (some operator) stepped.output other
        channel).filter Message.isCounted = [] := by
      rw [Graph.filter_routed fun _ => Message.data?_counted, silent, ite_self]
    by_cases linked : channel < (worker.operators other).input.receivers.length
    · rw [queue_sendAll _ _ fun unlinked => absurd unlinked (by omega),
        List.filter_append,
        (through other less).1 channel, routed]
      rfl
    · rw [Input.queue_unlinked _ (by simpa using linked)]
      rfl

theorem Faces.called (faces : worker.Faces graph operator)
    (performing : worker.Performing graph workerId procedure)
    (inGraph : operator < graph.size) (different : other ≠ operator)
    (called : worker.call graph workerId calls other count = .ok next) :
    next.Faces graph operator := by
  intro channel inRange
  obtain ⟨marker, rest, head, isMarker⟩ := faces channel inRange
  obtain ⟨stepped, -, after⟩ := act_other (Ne.symm different) called
  obtain ⟨channels, -⟩ := performing.ready.sound.wired operator inGraph
  refine ⟨marker, rest ++ graph.routed (some other) stepped.output operator
    channel, ?_, isMarker⟩
  rw [after, queue_sendAll _ _ fun unlinked => absurd unlinked (by omega), head]
  rfl

/-- An operator whose channels all start with a marker takes it. -/
theorem Faces.taken (faces : worker.Faces graph operator)
    (performing : worker.Performing graph workerId procedure)
    (through : worker.Through operator) (inGraph : operator < graph.size)
    (called : worker.call graph workerId calls operator count = .ok next) :
    Quiet (next.operators operator) := by
  obtain ⟨⟨stepped, ran, after⟩, -⟩ := act_step inGraph called
  obtain ⟨logic, state, body, -⟩ := logic_body performing.undistributed
    performing.ready.sound performing.ready.kept inGraph
  obtain ⟨received, -⟩ := step_relays body ran
  obtain ⟨channels, -⟩ := performing.ready.sound.wired operator inGraph
  have linked := List.length_pos_iff.mpr (graph.linked operator inGraph)
  obtain ⟨marker, rest, head, isMarker⟩ := faces 0 linked
  have counted : marker.isCounted = true := by
    cases marker <;> simp_all [Message.isMarker, Message.isCounted]
  have same := queued_message performing inGraph counted
    (head ▸ List.mem_cons_self)
  have stalled : (worker.operators operator).input.next? = none := by
    rw [Input.next?_eq_none]
    intro upstream member
    obtain ⟨channel, inside, rfl⟩ := List.mem_iff_getElem.mp member
    obtain ⟨first, more, head, isMarker⟩ := faces channel (channels ▸ inside)
    simp only [Input.queue, List.getElem?_eq_getElem inside] at head
    simp [head, canRecvUnaligned, isMarker]
  have taken : ∃ message, stepped.taken = some message ∧
      message.isMarker = true := by
    have takes := Input.recv_received received
    generalize stepped.taken = taken at takes ⊢
    generalize stepped.operator.input = later at takes
    cases takes with
    | passed served => rw [stalled] at served; cases served
    | epoch served => rw [stalled] at served; cases served
    | idle _ waiting =>
        rcases waiting with unlinked | ⟨upstream, member, empty⟩
        · rw [unlinked] at channels
          simp [← channels] at linked
        · obtain ⟨channel, inside, rfl⟩ := List.mem_iff_getElem.mp member
          obtain ⟨first, more, head, -⟩ := faces channel (channels ▸ inside)
          simp only [Input.queue, List.getElem?_eq_getElem inside, empty]
            at head
          cases head
    | aligned _ _ isMarker heads => exact ⟨_, rfl, isMarker⟩
  obtain ⟨message, isTaken, marks⟩ := taken
  have inLog : message ∈ (next.logs operator).taken := by
    simp only [Worker.call, Worker.act, ran] at called
    obtain rfl := Except.ok.inj called
    simp [hand, install, Log.taken, Stepped.turn, isTaken]
  refine quiet_of_marked (performing.called inGraph called)
    (same ▸ isMarker) inGraph ?_ ?_
  · exact Through.called performing through inGraph called
  · exact Nat.ne_of_gt (List.countP_pos_iff.mpr ⟨_, inLog, marks⟩)

/-! ### One turn and one pass -/

/-- What the calls of an operator keep is kept by its turn. -/
theorem turn_keeps (holds : Worker K V T S E → Prop)
    (kept : ∀ state count later, holds state →
      state.call graph workerId calls operator count = .ok later → holds later)
    {bound : Nat} (initial : holds worker)
    (ends : worker.turn graph workerId calls bound operator =
      some (.ok next)) : holds next := by
  unfold turn at ends
  split at ends
  next =>
    obtain rfl := by simpa using ends
    exact initial
  next =>
    split at ends
    next => simp at ends
    next first called =>
      refine loop_invariant holds (fun count state later isState called => ?_)
        (kept worker 0 first initial called) ends
      exact kept state count later isState called

/-- A turn ends when the operator has no queued work. -/
theorem turn_rests {bound : Nat}
    (runs : (worker.operators operator).isSuspended = false)
    (ends : worker.turn graph workerId calls bound operator =
      some (.ok next)) : (next.operators operator).hasQueuedWork = false := by
  simp only [turn, runs, Bool.false_eq_true, if_false] at ends
  split at ends
  next => simp at ends
  next =>
    have done := loop_done ends
    exact done

theorem turns_keep (holds : Worker K V T S E → Prop) {bound : Nat}
    {operators : List Nat}
    (kept : ∀ operator ∈ operators, ∀ state count later, holds state →
      state.call graph workerId calls operator count = .ok later → holds later)
    (initial : holds worker)
    (ends : worker.turns graph workerId calls bound operators =
      some (.ok next)) : holds next := by
  induction operators generalizing worker with
  | nil =>
      obtain rfl := by simpa [turns] using ends
      exact initial
  | cons first rest ih =>
      simp only [turns] at ends
      split at ends
      next => cases ends
      next => simp at ends
      next later turned =>
        exact ih (fun operator listed => kept operator (.tail _ listed))
          (turn_keeps holds (kept first List.mem_cons_self) initial turned) ends

/-- A pass brings about what the turn of one operator does, where the others
leave it as it is. -/
theorem turns_bring (operator : Nat) (before after : Worker K V T S E → Prop)
    {bound : Nat}
    (brings : ∀ state later, before state →
      state.turn graph workerId calls bound operator = some (.ok later) →
      after later)
    {operators : List Nat}
    (waits : ∀ other ∈ operators, other ≠ operator → ∀ state count later,
      before state →
      state.call graph workerId calls other count = .ok later → before later)
    (stays : ∀ other ∈ operators, other ≠ operator → ∀ state count later,
      after state →
      state.call graph workerId calls other count = .ok later → after later)
    (distinct : operators.Nodup) (member : operator ∈ operators)
    (initial : before worker)
    (ends : worker.turns graph workerId calls bound operators =
      some (.ok next)) : after next := by
  induction operators generalizing worker with
  | nil => cases member
  | cons first rest ih =>
      obtain ⟨unlisted, distinct⟩ := List.nodup_cons.mp distinct
      simp only [turns] at ends
      split at ends
      next => cases ends
      next => simp at ends
      next later turned =>
        rcases List.mem_cons.mp member with rfl | behind
        · refine turns_keep after (fun other listed => ?_)
            (brings worker later initial turned) ends
          exact stays other (.tail _ listed) (ne_of_mem_of_not_mem listed unlisted)
        · have different : first ≠ operator :=
            (ne_of_mem_of_not_mem behind unlisted).symm
          exact ih (fun other listed => waits other (.tail _ listed))
            (fun other listed => stays other (.tail _ listed)) distinct behind
            (turn_keeps before (waits first List.mem_cons_self different)
              initial turned) ends

omit [DecidableEq K] [MaybeTime T] [LT T] [DecidableLT T] in
theorem Through.succ (through : worker.Through operators)
    (quiet : Quiet (worker.operators operators)) :
    worker.Through (operators + 1) := by
  intro operator less
  rcases Nat.lt_succ_iff_lt_or_eq.mp less with before | rfl
  · exact through operator before
  · exact quiet

end Worker

/-! ### The stages of a procedure -/

structure Worker.Clears (graph : Graph K V T S E) (workerId : WorkerId)
    (procedure : Procedure) (operators : Nat) (worker : Worker K V T S E) :
    Prop where
  performing : worker.Performing graph workerId procedure
  through : worker.Through operators

/-- The next operator has nothing left or is at its markers. -/
structure Worker.Comes (graph : Graph K V T S E) (workerId : WorkerId)
    (procedure : Procedure) (operator : Nat) (worker : Worker K V T S E) :
    Prop extends worker.Clears graph workerId procedure operator where
  comes : Quiet (worker.operators operator) ∨ worker.Faces graph operator

namespace Worker

variable [DecidableEq K] [MaybeTime T] [LT T] [DecidableLT T]
  {graph : Graph K V T S E} {worker next : Worker K V T S E}
  {workerId : WorkerId} {operator other : Nat} {procedure : Procedure}
  {calls : Nat → Nat → Call E} {count operators bound : Nat}

theorem Clears.called
    (clears : worker.Clears graph workerId procedure operators)
    (inGraph : other < graph.size)
    (called : worker.call graph workerId calls other count = .ok next) :
    next.Clears graph workerId procedure operators where
  performing := clears.performing.called inGraph called
  through := clears.through.called clears.performing inGraph called

theorem Comes.called (comes : worker.Comes graph workerId procedure operator)
    (inGraph : operator < graph.size) (otherIn : other < graph.size)
    (different : other ≠ operator)
    (called : worker.call graph workerId calls other count = .ok next) :
    next.Comes graph workerId procedure operator where
  toClears := comes.toClears.called otherIn called
  comes := by
    rcases comes.comes with quiet | faces
    · exact .inl ((comes.through.succ quiet).called comes.performing otherIn
        called operator (Nat.lt_succ_self _))
    · exact .inr (faces.called comes.performing inGraph different called)

/-- In its turn an operator behind those with nothing left comes to its
markers. -/
theorem Clears.comes (clears : worker.Clears graph workerId procedure operator)
    (inGraph : operator < graph.size)
    (turned : worker.turn graph workerId calls bound operator =
      some (.ok next)) :
    next.Comes graph workerId procedure operator := by
  have after : next.Clears graph workerId procedure operator :=
    turn_keeps _ (fun state count later clears called =>
      Clears.called clears inGraph called) clears turned
  refine ⟨after, ?_⟩
  cases suspended : (worker.operators operator).isSuspended with
  | true =>
      simp only [turn, suspended, if_true, Option.some.injEq,
        Except.ok.injEq] at turned
      subst turned
      exact .inl (quiet_of_suspended clears.performing inGraph clears.through
        suspended)
  | false =>
      exact rests after.performing inGraph after.through
        (turn_rests suspended turned)

/-- An operator at its markers takes them in its next turn. -/
theorem Comes.takes (comes : worker.Comes graph workerId procedure operator)
    (inGraph : operator < graph.size)
    (turned : worker.turn graph workerId calls bound operator =
      some (.ok next)) :
    next.Clears graph workerId procedure (operator + 1) := by
  have stays (quiet : Quiet (worker.operators operator)) :
      next.Clears graph workerId procedure (operator + 1) :=
    turn_keeps _ (fun state count later clears called =>
        Clears.called clears inGraph called)
      ⟨comes.performing, comes.through.succ quiet⟩ turned
  rcases comes.comes with quiet | faces
  · exact stays quiet
  · cases suspended : (worker.operators operator).isSuspended with
    | true =>
        exact stays (quiet_of_suspended comes.performing inGraph comes.through
          suspended)
    | false =>
        simp only [turn, suspended, Bool.false_eq_true, if_false] at turned
        split at turned
        next => simp at turned
        next first called =>
          have after := comes.toClears.called inGraph called
          have quiet :=
            faces.taken comes.performing comes.through inGraph called
          exact loop_invariant _ (fun count state later clears called =>
              Clears.called clears inGraph called)
            ⟨after.performing, after.through.succ quiet⟩ turned

/-- An even stage has brought the message through half of its operators, and at
an odd one the next operator is at its markers. -/
def Stage (graph : Graph K V T S E) (workerId : WorkerId)
    (procedure : Procedure) (stage : Nat) (worker : Worker K V T S E) : Prop :=
  if stage % 2 = 0 then worker.Clears graph workerId procedure (stage / 2)
  else worker.Comes graph workerId procedure (stage / 2)

omit [DecidableEq K] [MaybeTime T] [LT T] [DecidableLT T] in
theorem Stage.performing {stage : Nat}
    (reached : worker.Stage graph workerId procedure stage) :
    worker.Performing graph workerId procedure := by
  unfold Stage at reached
  split at reached
  next => exact reached.performing
  next => exact reached.performing

/-- A pass brings the message one stage further. -/
theorem Stage.pass {stage : Nat}
    (reached : worker.Stage graph workerId procedure stage)
    (inGraph : stage / 2 < graph.size)
    (passed : worker.step graph workerId calls bound = some (.ok next)) :
    next.Stage graph workerId procedure (stage + 1) := by
  have within {other : Nat} (listed : other ∈ (List.range graph.size).reverse) :
      other < graph.size := by simpa using listed
  have distinct : (List.range graph.size).reverse.Nodup :=
    List.nodup_reverse.mpr List.nodup_range
  have listed : stage / 2 ∈ (List.range graph.size).reverse := by
    simpa using inGraph
  unfold Stage at reached ⊢
  split at reached
  next even =>
    have half : (stage + 1) / 2 = stage / 2 := by omega
    rw [if_neg (by omega), half]
    exact turns_bring (stage / 2) _ _
      (fun state later clears turned => Clears.comes clears inGraph turned)
      (fun other isListed _ state count later clears called =>
        Clears.called clears (within isListed) called)
      (fun other isListed different state count later comes called =>
        Comes.called comes inGraph (within isListed) different called)
      distinct listed reached passed
  next odd =>
    have half : (stage + 1) / 2 = stage / 2 + 1 := by omega
    rw [if_pos (by omega), half]
    exact turns_bring (stage / 2) _ _
      (fun state later comes turned => Comes.takes comes inGraph turned)
      (fun other isListed different state count later comes called =>
        Comes.called comes inGraph (within isListed) different called)
      (fun other isListed _ state count later clears called =>
        Clears.called clears (within isListed) called)
      distinct listed reached passed

/-! ### The loop of a procedure -/

theorem Performing.call_ok
    (performing : worker.Performing graph workerId procedure)
    (calls : Nat → Nat → Call E) (count : Nat) (inGraph : operator < graph.size) :
    ∃ next, worker.call graph workerId calls operator count = .ok next := by
  obtain ⟨logic, state, body, -⟩ := logic_body performing.undistributed
    performing.ready.sound performing.ready.kept inGraph
  obtain ⟨taken, input, received⟩ := performing.ready.recv_ok inGraph
  have steps : ∃ stepped, (worker.operators operator).step workerId
      (calls operator count) = .ok stepped := by
    simp only [StandardOperator.step, body, Logic.step, received]
    cases taken <;> exact ⟨_, rfl⟩
  obtain ⟨stepped, ran⟩ := steps
  simp only [call, Worker.act, ran]
  exact ⟨_, rfl⟩

theorem Performing.turn_ok
    (performing : worker.Performing graph workerId procedure)
    (calls : Nat → Nat → Call E) (inGraph : operator < graph.size) :
    ∃ bound next,
      worker.turn graph workerId calls bound operator = some (.ok next) ∧
      next.Performing graph workerId procedure := by
  obtain ⟨logic, state, body, -⟩ := logic_body performing.undistributed
    performing.ready.sound performing.ready.kept inGraph
  obtain ⟨bound, ends⟩ := performing.ready.turn_ends calls inGraph
    fun _ => by simp [StandardOperator.Blocked, body]
  obtain ⟨result, turned⟩ := Option.isSome_iff_exists.mp ends
  cases result with
  | ok next =>
      refine ⟨bound, next, turned, turn_keeps _ ?_ performing turned⟩
      exact fun state count later performing called =>
        Performing.called performing inGraph called
  | error panic =>
      exfalso
      unfold turn at turned
      split at turned
      next => cases turned
      next =>
        obtain ⟨first, called⟩ := performing.call_ok calls 0 inGraph
        simp only [called] at turned
        refine loop_safe (fun state =>
          state.Performing graph workerId procedure) ?_
          (performing.called inGraph called) turned
        intro count state performing
        obtain ⟨later, called⟩ := Performing.call_ok performing calls count inGraph
        exact ⟨later, called, Performing.called performing inGraph called⟩

theorem Performing.turns_ok
    (performing : worker.Performing graph workerId procedure)
    (calls : Nat → Nat → Call E) (operators : List Nat)
    (inGraph : ∀ operator ∈ operators, operator < graph.size) :
    ∃ bound next,
      worker.turns graph workerId calls bound operators = some (.ok next) := by
  induction operators generalizing worker with
  | nil => exact ⟨0, worker, rfl⟩
  | cons operator rest ih =>
      obtain ⟨bound, later, turned, performs⟩ :=
        performing.turn_ok calls (inGraph operator List.mem_cons_self)
      obtain ⟨bound', next, ended⟩ :=
        ih performs fun other listed => inGraph other (.tail _ listed)
      refine ⟨max bound bound', next, ?_⟩
      simp only [turns, turn_mono (le_max_left _ _) turned]
      exact turns_mono (le_max_right _ _) ended

theorem schedule_mono {larger tests : Nat} (enough : bound ≤ larger)
    {calls : Nat → Nat → Nat → Call E}
    {result : Except RunPanic (Worker K V T S E)}
    (ends : schedule graph workerId calls bound tests count worker =
      some result) :
    schedule graph workerId calls larger tests count worker = some result := by
  induction tests generalizing count worker with
  | zero => cases ends
  | succ tests ih =>
      simp only [schedule] at ends ⊢
      split at ends
      next quiet => rw [if_pos quiet]; exact ends
      next clones =>
        rw [if_neg clones]
        unfold step at ends ⊢
        split at ends
        next => cases ends
        next panic passed => rw [turns_mono enough passed]; exact ends
        next next passed => rw [turns_mono enough passed]; exact ih ends

/-- Where the loop ends it has only called operators. -/
theorem schedule_reaches {tests : Nat} {calls : Nat → Nat → Nat → Call E}
    (ends : schedule graph workerId calls bound tests count worker =
      some (.ok next)) :
    Reaches (Worker.act graph workerId)
      (fun _ event => Worker.works graph event) worker next := by
  induction tests generalizing count worker with
  | zero => cases ends
  | succ tests ih =>
      simp only [schedule] at ends
      split at ends
      next =>
        obtain rfl := by simpa using ends
        exact .refl
      next =>
        split at ends
        next => cases ends
        next => simp at ends
        next later passed =>
          refine Reaches.trans ?_ (ih ends)
          refine turns_keep (Reaches (Worker.act graph workerId)
              (fun _ event => Worker.works graph event) worker)
            (fun operator listed state count after run called => ?_) .refl passed
          exact run.tail (show Worker.works graph (.step operator _) by
            simpa [Worker.works] using listed) called

omit [DecidableEq K] [MaybeTime T] [LT T] [DecidableLT T] in
theorem Performing.through (performing : worker.Performing graph workerId procedure)
    (quiet : worker.strongCount graph ≤ 1) :
    worker.Clears graph workerId procedure graph.size :=
  ⟨performing, strongCount_le_one.mp quiet⟩

theorem Stage.returns {stage tests : Nat}
    (reached : worker.Stage graph workerId procedure stage)
    (calls : Nat → Nat → Nat → Call E) (within : stage ≤ 2 * graph.size)
    (enough : 2 * graph.size < stage + tests) (count : Nat) :
    ∃ bound last,
      schedule graph workerId calls bound tests count worker =
        some (.ok last) ∧
      last.Clears graph workerId procedure graph.size := by
  induction tests generalizing worker stage count with
  | zero => exact absurd enough (by omega)
  | succ tests ih =>
      by_cases quiet : worker.strongCount graph ≤ 1
      · exact ⟨0, worker, by simp only [schedule, if_pos quiet],
          reached.performing.through quiet⟩
      · have inGraph : stage / 2 < graph.size := by
          by_contra outside
          obtain rfl : stage = 2 * graph.size := by omega
          unfold Stage at reached
          have half : 2 * graph.size / 2 = graph.size := by omega
          rw [if_pos (by omega), half] at reached
          exact quiet (strongCount_le_one.mpr reached.through)
        obtain ⟨bound, next, passed⟩ := reached.performing.turns_ok (calls count)
          (List.range graph.size).reverse
          fun operator listed => by simpa using listed
        obtain ⟨bound', last, ended, clears⟩ :=
          ih (reached.pass inGraph passed) (by omega) (by omega) (count + 1)
        refine ⟨max bound bound', last, ?_, clears⟩
        have isStep : worker.step graph workerId (calls count)
            (max bound bound') = some (.ok next) :=
          turns_mono (le_max_left _ _) passed
        simp only [schedule, if_neg quiet, isStep]
        exact schedule_mono (le_max_right _ _) ended

end Worker

/-- `perform_reconfig`, `perform_snapshot` and `perform_suspend` return: where
no operator is a distributor, the worker has the only clone left of the message
it sent after at most two passes for each operator.  Each operator has taken the
message by then, and those which hand it on are suspended by a suspend marker
only. -/
theorem perform_returns [DecidableEq K] [MaybeTime T] [LT T] [DecidableLT T]
    {graph : Graph K V T S E} {context : BuildContext}
    {start worker : Worker K V T S E} {procedure : Procedure}
    (undistributed : graph.Undistributed)
    (built : graph.execute context = .ok start)
    (life : Reaches (Worker.act graph context.workerId)
      (Worker.allowed graph context.workerId) start worker)
    (begins : worker.allowed graph context.workerId (.command procedure))
    (calls : Nat → Nat → Nat → Call E) :
    ∃ bound last,
      worker.perform graph context.workerId calls bound (2 * graph.size + 1)
        procedure = some (.ok last) ∧
      Reaches (Worker.act graph context.workerId)
        (fun _ event => Worker.works graph event)
        (worker.begin graph procedure) last ∧
      last.strongCount graph ≤ 1 ∧
      ∀ operator < graph.size,
        procedure.message ∈ (last.logs operator).taken ∧
        ((last.operators operator).isSuspended = true ↔
          procedure = .suspend ∧ (graph.kind operator).forwards = true) := by
  have ready := Worker.Ready.reaches built life
  have unsuspended (operator : Nat) (inGraph : operator < graph.size) :=
    Worker.unsuspended undistributed built life begins.2 inGraph
  have begun : (worker.begin graph procedure).Performing graph
      context.workerId procedure := by
    refine ⟨undistributed, ready.act begins rfl, rfl, ?_, ?_⟩
    · intro operator inGraph forwards
      simp [Worker.begin, Worker.hand, Log.start, Log.taken]
    · intro operator inGraph
      simp [Worker.begin, Worker.hand, Log.start, Log.taken,
        unsuspended operator inGraph]
  have stage : (worker.begin graph procedure).Stage graph context.workerId
      procedure 0 := ⟨begun, fun operator less => absurd less (by omega)⟩
  have enough : 2 * graph.size < 0 + (2 * graph.size + 1) := by omega
  obtain ⟨bound, last, ended, clears⟩ :=
    stage.returns calls (Nat.zero_le _) enough 0
  refine ⟨bound, last, ended, Worker.schedule_reaches ended,
    Worker.strongCount_le_one.mpr clears.through, fun operator inGraph => ?_⟩
  have taken := Worker.message_taken clears.performing clears.through le_rfl
    operator inGraph
  refine ⟨taken, ?_⟩
  rw [clears.performing.relays.suspended operator inGraph, and_comm]
  refine and_congr_left fun _ => ⟨?_, ?_⟩
  · exact Worker.suspend_of_taken clears.performing inGraph
  · rintro rfl
    exact taken

theorem lane_undistributed : lane.Undistributed := by
  intro operator inGraph
  obtain ⟨logic, initial, isLogic, -⟩ := lane_local operator inGraph
  exact ⟨logic, initial, isLogic⟩

/-- Two records are on their way when the snapshot begins. -/
theorem lane_performed : ∃ bound last,
    laneSettled.perform lane ofTwo.workerId (fun _ _ _ => ⟨(), 0⟩) bound
      (2 * lane.size + 1) .snapshot = some (.ok last) ∧
    Reaches (Worker.act lane ofTwo.workerId)
      (fun _ event => Worker.works lane event)
      (laneSettled.begin lane .snapshot) last ∧
    last.strongCount lane ≤ 1 ∧
    ∀ operator < lane.size,
      Procedure.snapshot.message ∈ (last.logs operator).taken ∧
      ((last.operators operator).isSuspended = true ↔
        Procedure.snapshot = .suspend ∧
          (lane.kind operator).forwards = true) := by
  have built : lane.execute ofTwo = .ok laneStart := rfl
  have life : Reaches (Worker.act lane ofTwo.workerId)
      (Worker.allowed lane ofTwo.workerId) laneStart laneSettled := by
    unfold laneSettled
    exact Follows.reaches laneLife .refl (by decide +kernel)
  exact perform_returns lane_undistributed built life (by decide +kernel) _

end Malstrom.Stream
