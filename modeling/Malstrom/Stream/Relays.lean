import Malstrom.Stream.Recorded

namespace Malstrom.Stream

open Data Channels Keyed Operators

variable {K V T S E : Type}

/-! The message of a procedure on its way through a graph without
distributors. -/

def Graph.Undistributed (graph : Graph K V T S E) : Prop :=
  ∀ operator < graph.size, ∃ logic initial,
    graph.kind operator = .logic logic initial

def Log.taken (log : Log K V T S E) : List (Message K V T) :=
  log.turns.filterMap Turn.taken

/-! ### What leaves a channel -/

theorem countP_isMarker_counted (messages : List (Message K V T)) :
    (messages.filter Message.isCounted).countP Message.isMarker =
      messages.countP Message.isMarker := by
  rw [List.countP_filter]
  apply List.countP_congr
  intro message _
  cases message <;> simp [Message.isMarker, Message.isCounted]

namespace Turn.Served

variable {channels channel : Nat} {turn : Turn K V T E}

theorem taken_of_left (served : turn.Served channels)
    (inRange : channel < channels) {message : Message K V T}
    (counted : message.isCounted = true) (left : message ∈ turn.left channel) :
    turn.taken = some message := by
  have noEpoch : message.epoch? = none := by
    cases message <;> simp_all [Message.isCounted, Message.epoch?]
  cases served with
  | @one other found linked isLeft unmarked returns =>
      rw [isLeft, Function.update_apply] at left
      split at left
      next =>
        obtain rfl := List.mem_singleton.mp left
        have kept : plain [message] = [message] := by simp [plain, noEpoch]
        rw [kept] at returns
        cases taken : turn.taken with
        | none => simp [taken, plain] at returns
        | some got =>
            have member : message ∈ plain turn.taken.toList := by
              rw [returns]
              exact List.mem_cons_self
            rw [taken, Option.toList_some] at member
            rw [List.mem_singleton.mp (List.mem_of_mem_filter member)]
      next => cases left
  | idle nothing => simp [nothing] at left
  | every isMarker isLeft taken =>
      rw [isLeft channel inRange, List.mem_singleton] at left
      rw [taken, left]

theorem markers (served : turn.Served channels) (inRange : channel < channels) :
    (turn.left channel).countP Message.isMarker =
      turn.taken.toList.countP Message.isMarker := by
  cases served with
  | @one other message linked left unmarked returns =>
      have none : turn.taken.toList.countP Message.isMarker = 0 := by
        rw [List.countP_eq_zero]
        intro got member
        simp [unmarked_of_plain unmarked returns got member]
      rw [none, left, Function.update_apply]
      split
      next => simp [unmarked]
      next => rfl
  | idle left nothing => rw [left, nothing]; rfl
  | every isMarker left taken => rw [left channel inRange, taken]; rfl

end Turn.Served

theorem Log.markers_received {log : Log K V T S E} {channels channel : Nat}
    (served : ∀ turn ∈ log.turns, turn.Served channels)
    (inRange : channel < channels) :
    (log.received channel).countP Message.isMarker =
      log.taken.countP Message.isMarker := by
  unfold received taken
  revert served
  induction log.turns with
  | nil => exact fun _ => rfl
  | cons turn rest ih =>
      intro served
      have tail := ih fun later member => served later (.tail _ member)
      rw [List.flatMap_cons, List.countP_append, tail,
        (served turn List.mem_cons_self).markers inRange]
      cases taken : turn.taken with
      | none => simp [taken]
      | some message =>
          rw [List.filterMap_cons_some taken, Option.toList_some,
            List.countP_cons (l := rest.filterMap Turn.taken),
            List.countP_singleton, Nat.add_comm]

theorem Log.mem_taken_of_received {log : Log K V T S E}
    {channels channel : Nat}
    (served : ∀ turn ∈ log.turns, turn.Served channels)
    (inRange : channel < channels) {message : Message K V T}
    (counted : message.isCounted = true)
    (received : message ∈ log.received channel) : message ∈ log.taken := by
  obtain ⟨turn, member, left⟩ := List.mem_flatMap.mp received
  exact List.mem_filterMap.mpr
    ⟨turn, member, (served turn member).taken_of_left inRange counted left⟩

/-! ### One call of a logic -/

section

variable [DecidableEq K] [MaybeTime T] [LT T] [DecidableLT T]
  {operator : StandardOperator K V T S E} {thisWorker : WorkerId}
  {call : Call E} {stepped : Stepped K V T S E} {logic : Logic K V T S E}
  {state : S}

theorem step_relays (body : operator.body = .logic logic state)
    (ran : operator.step thisWorker call = .ok stepped) :
    operator.input.recv = .ok (stepped.taken, stepped.operator.input) ∧
      stepped.output.filter Message.isCounted =
        (if logic.forwards then
          stepped.taken.toList.filter Message.isCounted else []) ∧
      stepped.operator.isSuspended =
        (operator.isSuspended || stepped.output.any Message.isSuspend) := by
  have consistent : operator.body.Consistent := by
    rw [body]
    trivial
  obtain ⟨ranBody, received⟩ := StandardOperator.step_ran consistent ran
  rw [body] at ranBody received
  obtain ⟨-, output, -⟩ := ranBody.of_logic
  refine ⟨by simpa [Body.pending] using received, ?_, ?_⟩
  · rw [output]
    exact logic.counted_output _ _ _
  · simp only [StandardOperator.step, body, Logic.step] at ran
    split at ran
    next => simp at ran
    next =>
      obtain rfl := Except.ok.inj ran
      have silent : (logic.onSchedule call.external state).2.any
          Message.isSuspend = false := by
        rw [List.any_eq_false]
        intro message member isSuspend
        have uncounted := logic.scheduleUncounted _ _ message member
        cases message <;> simp [Message.isSuspend, Message.isCounted]
          at isSuspend uncounted
      simp [silent]
    next =>
      obtain rfl := Except.ok.inj ran
      rfl

/-- A logic is suspended by the suspend marker it hands on. -/
theorem step_suspended (body : operator.body = .logic logic state)
    (ran : operator.step thisWorker call = .ok stepped) :
    stepped.operator.isSuspended = true ↔
      operator.isSuspended = true ∨
        logic.forwards = true ∧ stepped.taken = some .suspendMarker := by
  obtain ⟨-, output, suspended⟩ := step_relays body ran
  have sent : stepped.output.any Message.isSuspend = true ↔
      .suspendMarker ∈ stepped.output.filter Message.isCounted := by
    rw [List.any_eq_true]
    constructor
    · rintro ⟨message, member, isSuspend⟩
      cases message <;> simp [Message.isSuspend] at isSuspend
      exact List.mem_filter.mpr ⟨member, rfl⟩
    · exact fun member => ⟨_, List.mem_of_mem_filter member, rfl⟩
  rw [suspended, Bool.or_eq_true, sent, output]
  cases logic.forwards <;> simp [Message.isCounted]

end

/-! ### The messages which the operators hand on -/

/-- Each operator has handed on what it has taken of the counted messages, and
those which have handed on a suspend marker are suspended. -/
structure Worker.Relays (graph : Graph K V T S E) (worker : Worker K V T S E) :
    Prop where
  handed : ∀ operator < graph.size, (graph.kind operator).forwards = true →
    (worker.logs operator).handed.filter Message.isCounted =
      (worker.logs operator).taken.filter Message.isCounted
  suspended : ∀ operator < graph.size,
    (worker.operators operator).isSuspended = true ↔
      (graph.kind operator).forwards = true ∧
        .suspendMarker ∈ (worker.logs operator).taken

namespace Worker

variable {graph : Graph K V T S E} {worker next begun : Worker K V T S E}
  {workerId : WorkerId} {operator : Nat} {procedure : Procedure}

theorem logic_body (undistributed : graph.Undistributed)
    (sound : worker.Sound graph) (kept : worker.Kept graph)
    (inGraph : operator < graph.size) :
    ∃ logic state, (worker.operators operator).body = .logic logic state ∧
      logic.forwards = (graph.kind operator).forwards := by
  obtain ⟨logic, initial, isLogic⟩ := undistributed operator inGraph
  have states := (kept operator inGraph).states
  simp only [isLogic] at states
  obtain ⟨state, -, body, -⟩ := states
  refine ⟨logic, _, body, ?_⟩
  have forwards := (sound.wired operator inGraph).forwards
  rw [body] at forwards
  exact forwards

variable [DecidableEq K] [MaybeTime T] [LT T] [DecidableLT T]

theorem Relays.install (undistributed : graph.Undistributed)
    (sound : worker.Sound graph) (kept : worker.Kept graph)
    (relays : worker.Relays graph) {call : Call E}
    {stepped : Stepped K V T S E} (inGraph : operator < graph.size)
    (ran : (worker.operators operator).step workerId call = .ok stepped) :
    ((worker.install graph operator call stepped).hand graph (some operator)
      stepped.output).Relays graph := by
  obtain ⟨logic, state, body, isForwards⟩ :=
    logic_body undistributed sound kept inGraph
  generalize isAfter : (worker.install graph operator call stepped).hand graph
    (some operator) stepped.output = after
  have taken : (after.logs operator).taken =
      (worker.logs operator).taken ++ stepped.taken.toList := by
    simp only [← isAfter, Worker.hand, Worker.install, Function.update_self,
      Log.taken, List.filterMap_append]
    cases isTaken : stepped.taken <;> simp [Stepped.turn, isTaken]
  have handed : (after.logs operator).handed =
      (worker.logs operator).handed ++ stepped.output := by
    simp [← isAfter, Worker.hand, Worker.install]
  have stopped : (after.operators operator).isSuspended =
      stepped.operator.isSuspended := by
    simp [← isAfter, Worker.hand, Worker.install]
  constructor
  · intro other otherIn forwards
    by_cases same : other = operator
    · subst same
      obtain ⟨-, output, -⟩ := step_relays body ran
      rw [taken, handed, List.filter_append, List.filter_append, output,
        relays.handed other otherIn forwards, if_pos (isForwards.trans forwards)]
    · simpa [← isAfter, Worker.hand, Worker.install, same, Log.taken] using
        relays.handed other otherIn forwards
  · intro other otherIn
    by_cases same : other = operator
    · subst same
      rw [stopped, step_suspended body ran, relays.suspended other otherIn,
        isForwards, taken, List.mem_append, Option.mem_toList,
        ← and_or_left]
    · simpa [← isAfter, Worker.hand, Worker.install, same, Log.taken] using
        relays.suspended other otherIn

theorem unsuspended {context : BuildContext} {start : Worker K V T S E}
    (undistributed : graph.Undistributed)
    (built : graph.execute context = .ok start)
    (life : Reaches (Worker.act graph context.workerId)
      (Worker.allowed graph context.workerId) start worker)
    (continues : worker.continues context.workerId)
    (inGraph : operator < graph.size) :
    (worker.operators operator).isSuspended = false := by
  have suspends : ∀ operator < graph.size,
      (worker.operators operator).isSuspended = true →
        worker.procedure = some .suspend := by
    refine life.invariant (fun state => ∀ operator < graph.size,
      (state.operators operator).isSuspended = true →
        state.procedure = some .suspend) ?_ ?_
    · intro operator inGraph isSuspended
      rw [(execute_eq_ok built).1] at isSuspended
      cases isSuspended
    · intro state event later before holds permitted stepped
      have ready := Ready.reaches built before
      have after := ready.act permitted stepped
      intro operator inGraph isSuspended
      cases event with
      | command procedure =>
          obtain rfl := Except.ok.inj stepped
          have wasSuspend := holds operator inGraph isSuspended
          exact absurd permitted.2 (by simp [Worker.continues, wasSuspend])
      | step mover call =>
          simp only [Worker.act] at stepped
          split at stepped
          next => simp at stepped
          next result ran =>
            obtain rfl := Except.ok.inj stepped
            by_cases same : operator = mover
            · subst same
              obtain ⟨logic, running, body, -⟩ :=
                logic_body undistributed ready.sound ready.kept inGraph
              obtain ⟨-, -, suspended⟩ := step_relays body ran
              simp only [hand, install, Function.update_self, suspended,
                Bool.or_eq_true, List.any_eq_true] at isSuspended
              rcases isSuspended with was | ⟨message, sent, isSuspend⟩
              · exact holds operator inGraph was
              · have isMarker : message = .suspendMarker := by
                  cases message <;> simp [Message.isSuspend] at isSuspend
                  rfl
                subst isMarker
                have handed : .suspendMarker ∈ (((state.install graph operator
                    call result).hand graph (some operator)
                      result.output).logs operator).handed := by
                  simp [hand, install, sent]
                obtain ⟨procedure, isCurrent, isMessage⟩ :=
                  after.sound.exclusive operator inGraph _ rfl (.inl handed)
                cases procedure with
                | suspend => exact isCurrent
                | snapshot => cases isMessage
                | reconfig message => cases isMessage
            · simp only [hand, install, Function.update_of_ne same]
                at isSuspended
              exact holds operator inGraph isSuspended
      | deliver target remote message =>
          obtain rfl := Except.ok.inj stepped
          simp only [Function.update_apply] at isSuspended
          split at isSuspended
          next same => exact holds target (same ▸ inGraph) isSuspended
          next => exact holds operator inGraph isSuspended
      | report target report =>
          obtain rfl := Except.ok.inj stepped
          simp only [Function.update_apply] at isSuspended
          split at isSuspended
          next same => exact holds target (same ▸ inGraph) isSuspended
          next => exact holds operator inGraph isSuspended
  cases isSuspended : (worker.operators operator).isSuspended with
  | false => rfl
  | true =>
      have suspend := suspends operator inGraph isSuspended
      simp [Worker.continues, suspend] at continues

theorem Relays.act (undistributed : graph.Undistributed)
    (sound : worker.Sound graph) (kept : worker.Kept graph)
    (relays : worker.Relays graph) {event : Event K V T S E}
    (works : Worker.works graph event)
    (stepped : worker.act graph workerId event = .ok next) :
    next.Relays graph := by
  cases event with
  | command procedure => exact works.elim
  | step mover call =>
      simp only [Worker.act] at stepped
      split at stepped
      next => simp at stepped
      next result ran =>
        obtain rfl := Except.ok.inj stepped
        exact relays.install undistributed sound kept works ran
  | deliver target remote message =>
      obtain rfl := Except.ok.inj stepped
      refine ⟨relays.handed, fun other otherIn => ?_⟩
      rw [← relays.suspended other otherIn]
      simp only [Function.update_apply]
      split
      next same => rw [same]
      next => rfl
  | report target report =>
      obtain rfl := Except.ok.inj stepped
      refine ⟨relays.handed, fun other otherIn => ?_⟩
      rw [← relays.suspended other otherIn]
      simp only [Function.update_apply]
      split
      next same => rw [same]
      next => rfl

end Worker

/-! ### Where the message of a procedure is -/

structure Worker.Performing (graph : Graph K V T S E) (workerId : WorkerId)
    (procedure : Procedure) (worker : Worker K V T S E) : Prop where
  undistributed : graph.Undistributed
  ready : worker.Ready graph workerId
  isCurrent : worker.procedure = some procedure
  relays : worker.Relays graph

namespace Worker

variable {graph : Graph K V T S E} {worker next : Worker K V T S E}
  {workerId : WorkerId} {operator channel : Nat} {procedure : Procedure}

/-- The first operators have nothing left which the worker counts. -/
def Through (worker : Worker K V T S E) (operators : Nat) : Prop :=
  ∀ operator < operators, Quiet (worker.operators operator)

/-- Every channel of an operator starts with a marker. -/
def Faces (graph : Graph K V T S E) (worker : Worker K V T S E)
    (operator : Nat) : Prop :=
  ∀ channel < (graph.upstream operator).length, ∃ marker rest,
    (worker.operators operator).input.queue channel = marker :: rest ∧
      marker.isMarker = true

theorem Procedure.counted (procedure : Procedure) :
    (procedure.message : Message K V T).isCounted = true := by
  cases procedure <;> rfl

theorem held_nil (performing : worker.Performing graph workerId procedure)
    (inGraph : operator < graph.size) :
    (worker.operators operator).body.held = [] := by
  obtain ⟨logic, state, body, -⟩ := logic_body performing.undistributed
    performing.ready.sound performing.ready.kept inGraph
  rw [body]
  rfl

theorem queued_message (performing : worker.Performing graph workerId procedure)
    (inGraph : operator < graph.size) {message : Message K V T}
    (counted : message.isCounted = true)
    (queued : message ∈ (worker.operators operator).input.queue channel) :
    message = procedure.message := by
  by_cases linked :
      channel < (worker.operators operator).input.receivers.length
  · have isReceiver : (worker.operators operator).input.queue channel =
        (worker.operators operator).input.receivers[channel].receiver := by
      simp [Input.queue, linked]
    obtain ⟨current, isCurrent, same⟩ := performing.ready.queued_marker inGraph
      (List.getElem_mem linked) counted (isReceiver ▸ queued)
    rw [performing.isCurrent] at isCurrent
    rw [same, ← Option.some.inj isCurrent]
  · rw [Input.queue_unlinked _ (by omega)] at queued
    cases queued

theorem quiet_of_absent (performing : worker.Performing graph workerId procedure)
    (inGraph : operator < graph.size)
    (absent : ∀ channel, procedure.message ∉
      (worker.operators operator).input.queue channel) :
    Quiet (worker.operators operator) := by
  refine ⟨fun channel => ?_, held_nil performing inGraph⟩
  rw [List.filter_eq_nil_iff]
  intro message queued counted
  exact absent channel
    (queued_message performing inGraph counted queued ▸ queued)

theorem message_sent (performing : worker.Performing graph workerId procedure)
    (inGraph : operator < graph.size)
    (inRange : channel < (graph.upstream operator).length)
    (earlier : ∀ source < operator,
      procedure.message ∈ (worker.logs source).taken) :
    procedure.message ∈ (worker.logs operator).sent channel := by
  have isSource : (graph.upstream operator)[channel]? =
      some (graph.upstream operator)[channel] := by simp [inRange]
  have linked := performing.ready.sound.linked operator inGraph channel _ isSource
  apply List.mem_of_mem_filter (p := Message.isCounted)
  rw [linked]
  cases source : (graph.upstream operator)[channel] with
  | none => simp [issued, performing.isCurrent]
  | some source' =>
      have member : some source' ∈ graph.upstream operator :=
        source ▸ List.getElem_mem inRange
      have isEarlier := graph.earlier operator inGraph source' member
      simp only [issued, performing.relays.handed source' (by omega)
        (graph.forwards operator inGraph source' member)]
      exact List.mem_filter.mpr ⟨earlier source' isEarlier,
        Procedure.counted procedure⟩

theorem message_taken (performing : worker.Performing graph workerId procedure)
    {operators : Nat} (through : worker.Through operators)
    (inGraph : operators ≤ graph.size) :
    ∀ operator < operators,
      procedure.message ∈ (worker.logs operator).taken := by
  intro operator
  induction operator using Nat.strongRecOn with
  | ind operator ih =>
      intro less
      have inGraph : operator < graph.size := by omega
      have linked := List.length_pos_iff.mpr (graph.linked operator inGraph)
      have sent := message_sent performing inGraph linked
        fun source earlier => ih source earlier (by omega)
      obtain ⟨-, -, -, split, served⟩ :=
        performing.ready.sound.wired operator inGraph
      rw [split 0, List.mem_append] at sent
      refine Log.mem_taken_of_received served linked
        (Procedure.counted procedure) (sent.resolve_right fun queued => ?_)
      have member := List.mem_filter.mpr ⟨queued, Procedure.counted procedure⟩
      rw [(through operator less).1 0] at member
      cases member

/-! Markers come once on every channel. -/

theorem markers_sent (performing : worker.Performing graph workerId procedure)
    (marks : (procedure.message : Message K V T).isMarker = true)
    (inGraph : operator < graph.size)
    (inRange : channel < (graph.upstream operator).length)
    (earlier : ∀ source < operator,
      (worker.logs source).taken.countP Message.isMarker = 1) :
    ((worker.logs operator).sent channel).countP Message.isMarker = 1 := by
  have isSource : (graph.upstream operator)[channel]? =
      some (graph.upstream operator)[channel] := by simp [inRange]
  rw [← countP_isMarker_counted,
    performing.ready.sound.linked operator inGraph channel _ isSource]
  cases source : (graph.upstream operator)[channel] with
  | none => simp [issued, performing.isCurrent, marks]
  | some source' =>
      have member : some source' ∈ graph.upstream operator :=
        source ▸ List.getElem_mem inRange
      have isEarlier := graph.earlier operator inGraph source' member
      simp only [issued, performing.relays.handed source' (by omega)
        (graph.forwards operator inGraph source' member),
        countP_isMarker_counted]
      exact earlier source' isEarlier

theorem markers_queued (performing : worker.Performing graph workerId procedure)
    (inGraph : operator < graph.size)
    (inRange : channel < (graph.upstream operator).length) :
    ((worker.logs operator).sent channel).countP Message.isMarker =
      (worker.logs operator).taken.countP Message.isMarker +
        ((worker.operators operator).input.queue channel).countP
          Message.isMarker := by
  obtain ⟨-, -, -, split, served⟩ :=
    performing.ready.sound.wired operator inGraph
  rw [split channel, List.countP_append, Log.markers_received served inRange]

theorem markers_taken (performing : worker.Performing graph workerId procedure)
    (marks : (procedure.message : Message K V T).isMarker = true)
    {operators : Nat} (through : worker.Through operators)
    (inGraph : operators ≤ graph.size) :
    ∀ operator < operators,
      (worker.logs operator).taken.countP Message.isMarker = 1 := by
  intro operator
  induction operator using Nat.strongRecOn with
  | ind operator ih =>
      intro less
      have inGraph : operator < graph.size := by omega
      have linked := List.length_pos_iff.mpr (graph.linked operator inGraph)
      have sent := markers_sent performing marks inGraph linked
        fun source earlier => ih source earlier (by omega)
      have queued := markers_queued performing inGraph linked
      rw [← countP_isMarker_counted
        ((worker.operators operator).input.queue 0),
        (through operator less).1 0, List.countP_nil] at queued
      omega

/-- Once an operator behind others with nothing left has taken a marker, it has
nothing left either. -/
theorem quiet_of_marked (performing : worker.Performing graph workerId procedure)
    (marks : (procedure.message : Message K V T).isMarker = true)
    (inGraph : operator < graph.size) (through : worker.Through operator)
    (taken : (worker.logs operator).taken.countP Message.isMarker ≠ 0) :
    Quiet (worker.operators operator) := by
  apply quiet_of_absent performing inGraph
  intro channel queued
  by_cases inRange : channel < (graph.upstream operator).length
  · have sent := markers_sent performing marks inGraph inRange
      (markers_taken performing marks through inGraph.le)
    have balance := markers_queued performing inGraph inRange
    have positive := List.countP_pos_iff.mpr ⟨_, queued, marks⟩
    omega
  · obtain ⟨channels, -⟩ := performing.ready.sound.wired operator inGraph
    rw [Input.queue_unlinked _ (by omega)] at queued
    cases queued

theorem rests (performing : worker.Performing graph workerId procedure)
    (inGraph : operator < graph.size) (through : worker.Through operator)
    (idle : (worker.operators operator).hasQueuedWork = false) :
    Quiet (worker.operators operator) ∨ worker.Faces graph operator := by
  obtain ⟨channels, -⟩ := performing.ready.sound.wired operator inGraph
  have heads {channel : Nat} {message : Message K V T}
      {rest : List (Message K V T)}
      (head : (worker.operators operator).input.queue channel =
        message :: rest) : message.isMarker = true := by
    simp only [StandardOperator.hasQueuedWork, Input.canProgress,
      List.any_eq_false] at idle
    have linked : channel <
        (worker.operators operator).input.receivers.length := by
      by_contra unlinked
      rw [Input.queue_unlinked _ (by omega)] at head
      cases head
    have stalled := idle _ (List.getElem_mem linked)
    simp only [Input.queue, List.getElem?_eq_getElem linked] at head
    simpa [head, canRecvUnaligned] using stalled
  cases marks : (procedure.message : Message K V T).isMarker with
  | false =>
      refine .inl (quiet_of_absent performing inGraph fun channel queued => ?_)
      cases queue : (worker.operators operator).input.queue channel with
      | nil => rw [queue] at queued; cases queued
      | cons first rest =>
          have isMarker := heads queue
          have counted : first.isCounted = true := by
            cases first <;> simp_all [Message.isMarker, Message.isCounted]
          have same := queued_message performing inGraph counted
            (queue ▸ List.mem_cons_self)
          rw [same, marks] at isMarker
          cases isMarker
  | true =>
      by_cases taken :
          (worker.logs operator).taken.countP Message.isMarker = 0
      · refine .inr fun channel inRange => ?_
        have sent := markers_sent performing marks inGraph inRange
          (markers_taken performing marks through inGraph.le)
        rw [markers_queued performing inGraph inRange, taken] at sent
        cases queue : (worker.operators operator).input.queue channel with
        | nil => simp [queue] at sent
        | cons first rest => exact ⟨first, rest, rfl, heads queue⟩
      · exact .inl (quiet_of_marked performing marks inGraph through taken)

theorem suspend_of_taken
    (performing : worker.Performing graph workerId procedure)
    (inGraph : operator < graph.size)
    (taken : .suspendMarker ∈ (worker.logs operator).taken) :
    procedure = .suspend := by
  have linked := List.length_pos_iff.mpr (graph.linked operator inGraph)
  obtain ⟨-, -, -, split, served⟩ :=
    performing.ready.sound.wired operator inGraph
  obtain ⟨turn, member, isTaken⟩ := List.mem_filterMap.mp taken
  obtain ⟨channel, inRange, left⟩ :=
    (served turn member).mem_left linked isTaken rfl
  have sent : .suspendMarker ∈ (worker.logs operator).sent channel := by
    rw [split channel]
    exact List.mem_append_left _ (List.mem_flatMap.mpr ⟨turn, member, left⟩)
  obtain ⟨current, isCurrent, same⟩ :=
    performing.ready.sound.exclusive.sent performing.ready.sound.linked inGraph
      inRange rfl sent
  rw [performing.isCurrent] at isCurrent
  obtain rfl := Option.some.inj isCurrent
  cases procedure with
  | suspend => rfl
  | snapshot => cases same
  | reconfig message => cases same

theorem quiet_of_suspended
    (performing : worker.Performing graph workerId procedure)
    (inGraph : operator < graph.size) (through : worker.Through operator)
    (suspended : (worker.operators operator).isSuspended = true) :
    Quiet (worker.operators operator) := by
  have taken := ((performing.relays.suspended operator inGraph).mp suspended).2
  obtain rfl := suspend_of_taken performing inGraph taken
  refine quiet_of_marked performing rfl inGraph through ?_
  exact Nat.ne_of_gt (List.countP_pos_iff.mpr ⟨_, taken, rfl⟩)

end Worker

end Malstrom.Stream
