import Malstrom.Stream.Cell

namespace Malstrom.Stream

open Data Channels Keyed Operators

variable {K V T U E : Type}

/-! What the cell of a `Collect` has when it is unwrapped. -/

namespace Flow

def history (flow : Flow K V T U E) : Option Nat → List (Message K V T)
  | none => flow.entered
  | some source => (flow.logs source).handed

variable [DecidableEq K]

structure Played (region : Region K V T U E) (flow : Flow K V T U E)
    (operator : Nat) : Prop where
  body : (flow.operators operator).body = .logic (region.member operator).logic
    ((region.member operator).logic.replay (region.initial operator)
      (flow.logs operator).turns)
  handed : (flow.logs operator).handed =
    (region.member operator).logic.outputs (region.initial operator)
      (flow.logs operator).turns

structure Sound (region : Region K V T U E) (key : K) (flow : Flow K V T U E) :
    Prop where
  wired : flow.toWorker.Wired region.toGraph
  played : ∀ operator < region.size, flow.Played region operator
  fed : ∀ operator < region.size, ∀ channel source,
    (region.upstream operator)[channel]? = some source →
      (flow.logs operator).sent channel =
        (flow.history source).filter (region.carried operator channel)
  entered : Shut key flow.entered
  fresh : .collect key ∉ flow.entered → ∀ operator < region.size,
    ∀ turn ∈ (flow.logs operator).turns, turn.taken ≠ some (.collect key)

/-- The cell of the key has of each operator what it should. -/
def Filled (region : Region K V T U E) (key : K) (flow : Flow K V T U E) :
    Prop :=
  ∀ operator < region.size, Cell (region.member operator).logic key
    ((region.member operator).held key) (region.initial operator)
    (flow.logs operator).turns
    ((flow.cells key).get? (region.operatorId operator))

variable {region : Region K V T U E} {flow next : Flow K V T U E} {key : K}

theorem Sound.start {context : BuildContext} {worker : Worker K V T U E}
    (built : region.toGraph.execute context = .ok worker) :
    Sound region key { toWorker := worker } := by
  have sound := Worker.Sound.execute built
  obtain ⟨operators, -, -, logs⟩ := Worker.execute_eq_ok built
  refine ⟨sound.wired, ?_, ?_, Sealed.nil, ?_⟩
  · intro operator inGraph
    have body : (worker.operators operator).body =
        .logic (region.member operator).logic (region.initial operator) := by
      rw [operators]
      simp only [Graph.intoRunnable, region.built operator inGraph]
    constructor
    · rw [logs]
      exact body
    · rw [logs]
      rfl
  · intro operator inGraph channel source isSource
    have sent : (worker.logs operator).sent channel = [] := by
      rw [logs]
      simp only [Log.start]
      rw [operators]
      exact Worker.queue_intoRunnable context operator channel
    rw [sent]
    cases source with
    | none => rfl
    | some source => simp [history, logs, Log.start]
  · intro _ operator inGraph turn member
    simp [logs, Log.start] at member

theorem Filled.start {context : BuildContext} {worker : Worker K V T U E}
    (built : region.toGraph.execute context = .ok worker) :
    Filled region key { toWorker := worker } := by
  obtain ⟨-, -, -, logs⟩ := Worker.execute_eq_ok built
  intro operator inGraph
  simp only [logs, Log.start, IndexMap.get?_empty]
  exact .nil

theorem Sound.enter (sound : flow.Sound region key) {message : Message K V T}
    (allowed : .collect key ∈ flow.entered → message.concerns key = false) :
    (flow.enter region message).Sound region key where
  wired := sound.wired.hand none [message]
  played operator inGraph :=
    ⟨(sound.played operator inGraph).body,
      (sound.played operator inGraph).handed⟩
  fed operator inGraph channel source isSource := by
    have before := sound.fed operator inGraph channel source isSource
    simp only [Flow.enter, Worker.hand, Graph.routed, before, isSource,
      Option.some.injEq]
    cases source with
    | none => simp [history]
    | some source => simp [history]
  entered := by
    refine sound.entered.push fun concerns earlier member => ?_
    cases isCollect : earlier.isCollect key with
    | false => rfl
    | true =>
        rw [allowed (isCollect_iff.mp isCollect ▸ member)] at concerns
        cases concerns
  fresh isOut operator inGraph :=
    sound.fresh (fun isIn => isOut (List.mem_append_left _ isIn)) operator inGraph

/-- No clone has been taken when the `Collect` comes in, so that its cell is
empty rightly. -/
theorem Filled.enter (filled : flow.Filled region key)
    (sound : flow.Sound region key) {message : Message K V T}
    (allowed : .collect key ∈ flow.entered → message.concerns key = false) :
    (flow.enter region message).Filled region key := by
  intro operator inGraph
  have before := filled operator inGraph
  by_cases isCollect : message = .collect key
  · subst isCollect
    have isOut : .collect key ∉ flow.entered := by
      intro isIn
      have elsewhere := allowed isIn
      rw [concerns_iff.mpr (.inr rfl)] at elsewhere
      cases elsewhere
    rw [before.untaken (sound.fresh isOut operator inGraph)] at before
    have emptied : ((flow.enter region (.collect key)).cells key).get?
        (region.operatorId operator) = none := by simp [Flow.enter]
    rw [emptied]
    exact before
  · have same : (flow.enter region message).cells key = flow.cells key := by
      simp only [Flow.enter]
      split
      next other =>
        apply Function.update_of_ne
        rintro rfl
        exact isCollect rfl
      next => rfl
    rw [same]
    exact before

/-! ### One call -/

section

variable (region flow) (operator : Nat) (call : Call E)
  (stepped : Stepped K V T U E)

theorem called_self :
    let later := flow.called region operator call stepped
    (later.operators operator).body = stepped.operator.body ∧
      (later.logs operator).turns = (flow.logs operator).turns ++
        [stepped.turn call (flow.operators operator).input] ∧
      (later.logs operator).handed =
        (flow.logs operator).handed ++ stepped.output := by
  simp [called, Worker.hand, Worker.install]

theorem called_other {other : Nat} (different : other ≠ operator) :
    let later := flow.called region operator call stepped
    (later.operators other).body = (flow.operators other).body ∧
      (later.logs other).turns = (flow.logs other).turns ∧
      (later.logs other).handed = (flow.logs other).handed := by
  simp [called, Worker.hand, Worker.install, Function.update_of_ne different]

theorem sent_called (target channel : Nat) :
    ((flow.called region operator call stepped).logs target).sent channel =
      (flow.logs target).sent channel ++ region.toGraph.routed (some operator)
        stepped.output target channel := by
  simp only [called, Worker.hand, Worker.install, Function.update_apply]
  split
  next same => rw [same]
  next => rfl

end

variable {operator : Nat} {call : Call E} {stepped : Stepped K V T U E}

theorem collect_pass {taken : Option (Message K V T)}
    (other : taken ≠ some (.collect key)) :
    flow.collect region operator call taken key = flow.cells key := by
  cases taken with
  | none => rfl
  | some message =>
      cases message with
      | collect collected =>
          have different : key ≠ collected := by
            rintro rfl
            exact other rfl
          cases body : (flow.operators operator).body with
          | logic logic state =>
              simp only [collect, body, Function.update_of_ne different]
          | distributor partitioner distributor => simp only [collect, body]
      | data | epoch | absBarrier | rescale | suspendMarker | interrogate
        | acquire => rfl

theorem collect_take (played : flow.Played region operator)
    (named : (region.member operator).Named (region.operatorId operator)) :
    flow.collect region operator call (some (.collect key)) key =
      match (region.member operator).held key
        ((region.member operator).logic.onSchedule call.external
          ((region.member operator).logic.replay (region.initial operator)
            (flow.logs operator).turns)).1 with
      | some keyState =>
          (flow.cells key).insert (region.operatorId operator) keyState
      | none => flow.cells key := by
  simp only [collect, played.body, Function.update_self]
  exact addState_eq named _ _

variable [MaybeTime T] [LT T] [DecidableLT T] {workerId : WorkerId}

theorem Played.called (played : flow.Played region operator)
    (consistent : (flow.operators operator).body.Consistent)
    (ran : (flow.operators operator).step workerId call = .ok stepped) :
    (flow.called region operator call stepped).Played region operator := by
  have body := (StandardOperator.step_ran consistent ran).1
  rw [played.body] at body
  obtain ⟨after, output, -⟩ := body.of_logic
  obtain ⟨isBody, turns, handed⟩ := called_self region flow operator call stepped
  constructor
  · rw [isBody, turns, Logic.replay_concat, after]
    rfl
  · rw [handed, turns, Logic.outputs_concat, played.handed, output]
    rfl

theorem Played.upcoming (played : flow.Played region operator)
    (consistent : (flow.operators operator).body.Consistent)
    (ran : (flow.operators operator).step workerId call = .ok stepped) :
    (flow.operators operator).upcoming = stepped.taken := by
  have received := (StandardOperator.step_ran consistent ran).2
  have free : (flow.operators operator).body.pending = false := by
    rw [played.body]
    rfl
  rw [free, if_neg Bool.false_ne_true] at received
  simp only [StandardOperator.upcoming, received]

variable (keyed : ∀ operator < region.size, (region.member operator).Keyed key)

include keyed

/-- A clone which an operator takes has come in. -/
theorem Sound.taken_collect (sound : flow.Sound region key)
    (inGraph : operator < region.size)
    (ran : (flow.operators operator).step workerId call = .ok stepped)
    (taken : stepped.taken = some (.collect key)) :
    .collect key ∈ flow.entered := by
  obtain ⟨channel, inRange, sent⟩ :=
    sound.wired.taken_sent inGraph ran taken rfl
  have isSource : (region.upstream operator)[channel]? =
      some (region.upstream operator)[channel] := by simp [inRange]
  rw [sound.fed operator inGraph channel _ isSource] at sent
  have issued := List.mem_of_mem_filter sent
  cases source : (region.upstream operator)[channel] with
  | none => rwa [source] at issued
  | some source' =>
      rw [source] at issued
      have isEarlier := region.earlier operator inGraph source'
        (source ▸ List.getElem_mem inRange)
      have sourceIn : source' < region.size := by omega
      have handed : .collect key ∈ (flow.logs source').handed := issued
      rw [(sound.played source' sourceIn).handed] at handed
      obtain ⟨turn, member, took⟩ :=
        (keyed source' sourceIn).logic.outputs_collect handed
      by_contra isOut
      exact sound.fresh isOut source' sourceIn turn member took

theorem Sound.called (sound : flow.Sound region key)
    (inGraph : operator < region.size)
    (ran : (flow.operators operator).step workerId call = .ok stepped) :
    (flow.called region operator call stepped).Sound region key := by
  obtain ⟨-, turns, handed⟩ := called_self region flow operator call stepped
  have others {other : Nat} (different : other ≠ operator) :=
    called_other region flow operator call stepped different
  have consistent := (sound.wired operator inGraph).consistent
  refine ⟨(sound.wired.install inGraph ran).hand _ _, ?_, ?_, sound.entered, ?_⟩
  · intro other otherIn
    by_cases same : other = operator
    · subst same
      exact (sound.played other otherIn).called consistent ran
    · obtain ⟨otherBody, otherTurns, otherHanded⟩ := others same
      obtain ⟨body, sent⟩ := sound.played other otherIn
      exact ⟨by rw [otherBody, otherTurns, body],
        by rw [otherHanded, otherTurns, sent]⟩
  · intro target targetIn channel source isSource
    rw [sent_called, sound.fed target targetIn channel source isSource]
    simp only [Graph.routed, isSource, Option.some.injEq]
    cases source with
    | none => simp [history, Flow.called]
    | some source =>
        by_cases same : source = operator
        · subst same
          simp [history, handed, List.filter_append]
        · simp [history, (others same).2.2, same]
  · intro isOut other otherIn
    by_cases same : other = operator
    · subst same
      rw [turns]
      intro turn member
      rcases List.mem_append.mp member with earlier | last
      · exact sound.fresh isOut other otherIn turn earlier
      · rw [List.mem_singleton.mp last]
        intro taken
        have isIn := sound.taken_collect keyed inGraph ran taken
        exact isOut isIn
    · rw [(others same).2.1]
      exact sound.fresh isOut other otherIn

theorem Filled.called (filled : flow.Filled region key)
    (sound : flow.Sound region key)
    (distinct : ∀ one < region.size, ∀ other < region.size,
      region.operatorId one = region.operatorId other → one = other)
    (inGraph : operator < region.size)
    (undivided : flow.Undivided region key (.step operator call))
    (ran : (flow.operators operator).step workerId call = .ok stepped) :
    (flow.called region operator call stepped).Filled region key := by
  intro other otherIn
  have before := filled other otherIn
  have played := sound.played operator inGraph
  have named := region.named operator inGraph
  by_cases same : other = operator
  · subst same
    obtain ⟨-, turns, -⟩ := called_self region flow other call stepped
    rw [turns]
    by_cases taken : stepped.taken = some (.collect key)
    · apply before.take (keyed other inGraph).logic taken
      simp only [Flow.called, taken, collect_take played named]
      split
      next keyState found =>
        rw [IndexMap.get?_insert_self]
        simp [found, Stepped.turn]
      next found => simp [found, Stepped.turn]
    · simp only [Flow.called, collect_pass taken]
      refine before.pass (keyed other inGraph).logic taken ?_
      intro message member
      apply undivided
      rwa [played.upcoming (sound.wired other inGraph).consistent ran]
  · have ids : region.operatorId other ≠ region.operatorId operator :=
      fun equal => same (distinct other otherIn operator inGraph equal)
    have kept : ((flow.called region operator call stepped).cells key).get?
        (region.operatorId other) =
          (flow.cells key).get? (region.operatorId other) := by
      by_cases taken : stepped.taken = some (.collect key)
      · simp only [Flow.called, taken, collect_take played named]
        split
        next => exact IndexMap.get?_insert_of_ne _ _ ids
        next => rfl
      · simp only [Flow.called, collect_pass taken]
    rw [(called_other region flow operator call stepped same).2.1, kept]
    exact before

/-! ### The end of a collection -/

omit keyed [MaybeTime T] [LT T] [DecidableLT T] in
/-- The last owner of the cell is the router. -/
theorem Unwrapped.unqueued (unwrapped : flow.Unwrapped region key)
    (inGraph : operator < region.size) (channel : Nat) :
    .collect key ∉ (flow.operators operator).input.queue channel := by
  have owners : ((List.range region.size).map fun operator =>
      ((flow.operators operator).input.receivers.map fun upstream =>
        upstream.receiver.countP (Message.isCollect key)).sum).sum = 0 := by
    have ofOne := unwrapped.2
    unfold strongCount at ofOne
    omega
  rw [List.sum_eq_zero_iff_forall_eq_nat] at owners
  have clones := owners _ (List.mem_map_of_mem (List.mem_range.mpr inGraph))
  rw [List.sum_eq_zero_iff_forall_eq_nat] at clones
  by_cases linked : channel < (flow.operators operator).input.receivers.length
  · have none := clones _ (List.mem_map_of_mem (List.getElem_mem linked))
    intro member
    have queued : .collect key ∈
        (flow.operators operator).input.receivers[channel].receiver := by
      simpa [Input.queue, linked] using member
    exact List.countP_eq_zero.mp none _ queued (isCollect_iff.mpr rfl)
  · rw [Input.queue_unlinked _ (by omega)]
    exact List.not_mem_nil

variable (passes : ∀ operator < region.size, ∀ source,
  some source ∈ region.upstream operator →
    (region.member source).logic.Passes key)

include passes

omit [MaybeTime T] [LT T] [DecidableLT T] in
/-- When the `Collect` can be unwrapped, every operator has taken the last clone
of it behind everything of the key. -/
theorem Sound.collected (sound : flow.Sound region key)
    (unwrapped : flow.Unwrapped region key) (inGraph : operator < region.size) :
    Collected key (takenOf (flow.logs operator).turns) ∧ ∀ channel,
      ∀ message ∈ (flow.operators operator).input.queue channel,
        message.concerns key = false := by
  -- the operators come in the order in which their streams were finished
  induction operator using Nat.strong_induction_on with
  | _ operator ih =>
    obtain ⟨-, -, -, split, served⟩ := sound.wired operator inGraph
    have issued {source : Option Nat}
        (isSource : source ∈ region.upstream operator) :
        Collected key (flow.history source) := by
      cases source with
      | none => exact sound.entered.closed unwrapped.1 (isCollect_iff.mpr rfl)
      | some source =>
          have isEarlier := region.earlier operator inGraph source isSource
          have sourceIn : source < region.size := by omega
          rw [history, (sound.played source sourceIn).handed]
          exact (keyed source sourceIn).logic.closes
            (passes operator inGraph source isSource)
            (ih source isEarlier sourceIn).1
    have upstream {channel : Nat}
        (inRange : channel < (region.upstream operator).length) :
        Collected key ((flow.logs operator).received channel) ∧
          ∀ message ∈ (flow.operators operator).input.queue channel,
            message.concerns key = false := by
      have isSource : (region.upstream operator)[channel]? =
          some (region.upstream operator)[channel] := by simp [inRange]
      have carried : ∀ message : Message K V T, message.isCollect key = true →
          region.carried operator channel message = true := by
        intro message isCollect
        rw [isCollect_iff.mp isCollect]
        rfl
      have sent := (issued (List.getElem_mem inRange)).filter carried
      rw [← sound.fed operator inGraph channel _ isSource, split channel] at sent
      apply sent.split
      intro message member
      rw [Bool.eq_false_iff, ne_eq, isCollect_iff]
      rintro rfl
      exact unwrapped.unqueued inGraph channel member
    refine ⟨?_, fun channel => ?_⟩
    · have linked := List.length_pos_iff.mpr (region.linked operator inGraph)
      exact collected_taken linked served fun _ inRange => (upstream inRange).1
    · by_cases inRange : channel < (region.upstream operator).length
      · exact (upstream inRange).2
      · rw [Input.queue_unlinked _ (by
          rw [(sound.wired operator inGraph).channels]
          omega)]
        simp

omit [MaybeTime T] [LT T] [DecidableLT T] in
theorem Sound.complete (sound : flow.Sound region key)
    (filled : flow.Filled region key) (unwrapped : flow.Unwrapped region key) :
    flow.Complete region key := by
  have collected {operator : Nat} (inGraph : operator < region.size) :=
    sound.collected keyed passes unwrapped inGraph
  constructor
  · exact fun operator inGraph =>
      (filled operator inGraph).gathered (collected inGraph).1
  · exact fun operator inGraph => ⟨_, (sound.played operator inGraph).body,
      (keyed operator inGraph).logic.released _ (collected inGraph).1⟩
  · exact fun operator inGraph => (collected inGraph).2

variable (linear : ∀ operator < region.size,
  (region.upstream operator).length = 1)

include linear

omit [MaybeTime T] [LT T] [DecidableLT T] in
/-- Where no streams are joined, nothing of the key comes behind a clone. -/
theorem Sound.shut (sound : flow.Sound region key)
    (inGraph : operator < region.size) :
    Shut key (takenOf (flow.logs operator).turns) := by
  induction operator using Nat.strong_induction_on with
  | _ operator ih =>
    obtain ⟨-, -, -, split, served⟩ := sound.wired operator inGraph
    have single := linear operator inGraph
    have inRange : 0 < (region.upstream operator).length := by omega
    have isSource : (region.upstream operator)[0]? =
        some (region.upstream operator)[0] := by simp [inRange]
    have issued : Shut key (flow.history (region.upstream operator)[0]) := by
      cases source : (region.upstream operator)[0] with
      | none => exact sound.entered
      | some source' =>
          have member : some source' ∈ region.upstream operator :=
            source ▸ List.getElem_mem inRange
          have isEarlier := region.earlier operator inGraph source' member
          have sourceIn : source' < region.size := by omega
          rw [history, (sound.played source' sourceIn).handed]
          exact (keyed source' sourceIn).logic.seals
            (passes operator inGraph source' member) (ih source' isEarlier sourceIn)
    have sent := issued.filter (region.carried operator 0)
    rw [← sound.fed operator inGraph 0 _ isSource, split 0] at sent
    apply sealed_of_filter fun message => concerns_of_isCollect
    rw [filter_takenOf (single ▸ served)]
    exact sent.earlier.filter _

theorem Sound.undivided (sound : flow.Sound region key)
    (filled : flow.Filled region key) (inGraph : operator < region.size)
    (ran : (flow.operators operator).step workerId call = .ok stepped) :
    flow.Undivided region key (.step operator call) := by
  intro message member isKey
  have later := (sound.called keyed inGraph ran).shut keyed passes linear inGraph
  rw [(called_self region flow operator call stepped).2.1, takenOf_concat] at later
  cases filled operator inGraph with
  | waiting nothing => exact nothing
  | @written before after turn keyState split taken =>
      have isTaken : .collect key ∈ takenOf (flow.logs operator).turns :=
        List.mem_filterMap.mpr ⟨turn, by simp [split], taken⟩
      rw [(sound.played operator inGraph).upcoming
        (sound.wired operator inGraph).consistent ran] at member
      have behind := later.behind isTaken (isCollect_iff.mpr rfl) message
        (Option.mem_toList.mpr member)
      rw [concerns_iff.mpr (.inl isKey)] at behind
      cases behind

omit passes linear

theorem kept_step (distinct : ∀ one < region.size, ∀ other < region.size,
      region.operatorId one = region.operatorId other → one = other)
    (kept : flow.Sound region key ∧ flow.Filled region key)
    {event : Event K V T E} (allowed : flow.Allowed region key event)
    (undivided : ∀ operator call stepped, event = .step operator call →
      (flow.operators operator).step workerId call = .ok stepped →
        flow.Undivided region key event)
    (stepped : flow.act region workerId event = .ok next) :
    next.Sound region key ∧ next.Filled region key := by
  obtain ⟨sound, filled⟩ := kept
  cases event with
  | enter message =>
      obtain rfl := Except.ok.inj stepped
      exact ⟨sound.enter allowed.2, filled.enter sound allowed.2⟩
  | step operator call =>
      simp only [Flow.act] at stepped
      split at stepped
      next => cases stepped
      next result ran =>
        obtain rfl := Except.ok.inj stepped
        exact ⟨sound.called keyed allowed ran, filled.called keyed sound distinct
          allowed (undivided operator call result rfl ran) ran⟩

end Flow

section

variable [DecidableEq K] [MaybeTime T] [LT T] [DecidableLT T]
  {region : Region K V T U E} {key : K} {context : BuildContext}
  {worker : Worker K V T U E}
  (built : region.toGraph.execute context = .ok worker)
  (keyed : ∀ operator < region.size, (region.member operator).Keyed key)
  (passes : ∀ operator < region.size, ∀ source,
    some source ∈ region.upstream operator →
      (region.member source).logic.Passes key)
  {flow : Flow K V T U E}

include built keyed passes

/-- The `Collect` of a key is complete when it is unwrapped, in every run in which
no operator whose state of the key has been collected takes another record of
it. -/
theorem collection_complete
    (run : Reaches (Flow.act region context.workerId)
      (fun flow event => flow.Allowed region key event ∧
        flow.Undivided region key event) { toWorker := worker } flow)
    (unwrapped : flow.Unwrapped region key) : flow.Complete region key := by
  have distinct : ∀ one < region.size, ∀ other < region.size,
      region.operatorId one = region.operatorId other → one = other :=
    fun one oneIn other otherIn => Graph.execute_distinct built oneIn otherIn
  have kept : flow.Sound region key ∧ flow.Filled region key := by
    refine run.invariant (fun flow => flow.Sound region key ∧
      flow.Filled region key) ⟨.start built, .start built⟩ ?_
    rintro flow event next - kept ⟨allowed, undivided⟩ stepped
    exact Flow.kept_step keyed distinct kept allowed
      (fun _ _ _ _ _ => undivided) stepped
  exact kept.1.complete keyed passes kept.2 unwrapped

/-- Where no streams are joined, it is complete in every run. -/
theorem linear_collection
    (linear : ∀ operator < region.size, (region.upstream operator).length = 1)
    (run : Reaches (Flow.act region context.workerId)
      (Flow.Allowed region key) { toWorker := worker } flow)
    (unwrapped : flow.Unwrapped region key) : flow.Complete region key := by
  have distinct : ∀ one < region.size, ∀ other < region.size,
      region.operatorId one = region.operatorId other → one = other :=
    fun one oneIn other otherIn => Graph.execute_distinct built oneIn otherIn
  have kept : flow.Sound region key ∧ flow.Filled region key := by
    refine run.invariant (fun flow => flow.Sound region key ∧
      flow.Filled region key) ⟨.start built, .start built⟩ ?_
    intro flow event next _ kept allowed stepped
    refine Flow.kept_step keyed distinct kept allowed ?_ stepped
    rintro operator call result rfl ran
    exact kept.1.undivided keyed passes linear kept.2 allowed ran
  exact kept.1.complete keyed passes kept.2 unwrapped

end

/-- The call at which the state of an operator was collected. -/
theorem Flow.Gathered.index [DecidableEq K] {region : Region K V T U E}
    {key : K} {flow : Flow K V T U E} {operator : Nat}
    (gathered : flow.Gathered region key operator) :
    ∃ number < (flow.logs operator).turns.length,
      (∀ later ∈ (flow.logs operator).turns.drop (number + 1),
        ∀ message ∈ later.taken, message.key? ≠ some key) ∧
      (flow.cells key).get? (region.operatorId operator) =
        (region.member operator).held key ((region.member operator).logic.replay
          (region.initial operator)
          (((flow.logs operator).turns.take (number + 1)).map
            (Turn.without key))) := by
  obtain ⟨before, turn, after, split, -, quiet, state⟩ := gathered
  refine ⟨before.length, by simp [split], ?_, ?_⟩
  · have rest : (flow.logs operator).turns.drop (before.length + 1) = after := by
      rw [split, List.append_cons]
      exact List.drop_left' (by simp)
    rwa [rest]
  · have front : (flow.logs operator).turns.take (before.length + 1) =
        before ++ [turn] := by
      rw [split, List.append_cons]
      exact List.take_left' (by simp)
    rw [front, state]

/-! A region which is split into two branches and joined again in front of a
stateful operator.  The records all go through the second branch. -/

def countRecords : StatefulOp Nat Nat Nat Nat Nat Unit where
  operatorId := 13
  logic :=
    { onData _ message count := ((), some (count + 1), [message])
      onEpoch _ _ counts := ((), counts, [])
      onSchedule _ counts := ((), counts, []) }
  default := 0
  encode count := [UInt8.ofNat count]
  decode bytes := (bytes.headD 0).toNat

theorem countRecords_keeps :
    countRecords.logic.KeepsKeys ∧ countRecords.logic.KeepsRecords := by
  refine ⟨⟨fun _ _ _ _ => id, fun _ _ _ => id⟩, ⟨?_, ?_, ?_⟩⟩
  · intro memory message count record member
    rw [List.mem_singleton.mp member]
  · intro memory time counts record member
    cases member
  · intro memory counts record member
    cases member

abbrev Counts := OperatorState Nat Nat Unit

def branchMember : Nat → Member Nat Nat Nat Counts Unit
  | 0 => .stateless Library.split
  | 1 | 2 => .stateless (Library.statelessOp
      (fun message state => (state, [message])) fun _ state => (state, []))
  | _ => .stateful countRecords (fun counts => counts.values.map UInt8.ofNat) id id

def twoBranches : Region Nat Nat Nat Counts Unit where
  size := 4
  name operator := toString operator
  operatorId operator := 10 + operator
  kind operator := .logic (branchMember operator).logic ⟨.empty, ()⟩
  upstream operator :=
    if operator = 0 then [none]
    else if operator < 3 then [some 0]
    else [some 1, some 2]
  carries target _ _ := decide (target ≠ 1)
  linked := by decide
  earlier := by
    intro operator inGraph source member
    split at member
    · simp at member
    · split at member <;> simp at member <;> omega
  forwards := by
    intro operator inGraph source member
    split at member
    · simp at member
    · split at member
      · obtain rfl : source = 0 := by simpa using member
        rfl
      · obtain rfl | rfl : source = 1 ∨ source = 2 := by simpa using member
        · rfl
        · rfl
  member := branchMember
  initial _ := ⟨.empty, ()⟩
  built _ _ := rfl
  named := by
    intro operator inGraph
    match operator with
    | 0 | 1 | 2 => trivial
    | 3 => rfl

def ofOne : BuildContext where
  workerId := 0
  workerIds := IndexSet.ofList [0]
  listed := by decide

def twoBranchesStart : Worker Nat Nat Nat Counts Unit where
  operators := twoBranches.intoRunnable ofOne
  procedure := none
  persisted := []
  logs operator := Log.start (twoBranches.intoRunnable ofOne operator)

def callOf (operator : Nat) : Flow.Event Nat Nat Nat Unit :=
  .step operator ⟨(), 0⟩

/-- Two records of key 7 and its `Collect`.  The second record is behind the
clone of the other branch. -/
def dividedTrace : List (Flow.Event Nat Nat Nat Unit) :=
  [.enter (.data ⟨7, 0, 0⟩), callOf 0, callOf 2, callOf 3,
    .enter (.data ⟨7, 0, 0⟩), .enter (.collect 7), callOf 0, callOf 0,
    callOf 1, callOf 3, callOf 2, callOf 3, callOf 2, callOf 3]

/-- The branch of the records is scheduled first. -/
def undividedTrace : List (Flow.Event Nat Nat Nat Unit) :=
  [.enter (.data ⟨7, 0, 0⟩), callOf 0, callOf 2, callOf 3,
    .enter (.data ⟨7, 0, 0⟩), .enter (.collect 7), callOf 0, callOf 0,
    callOf 2, callOf 3, callOf 1, callOf 3, callOf 2, callOf 3]

@[irreducible] def dividedFlow : Flow Nat Nat Nat Counts Unit :=
  replay (Flow.act twoBranches 0) { toWorker := twoBranchesStart } dividedTrace

@[irreducible] def undividedFlow : Flow Nat Nat Nat Counts Unit :=
  replay (Flow.act twoBranches 0) { toWorker := twoBranchesStart } undividedTrace

theorem undivided_collection :
    (undividedFlow.cells 7).get? 13 = some [2] ∧
      undividedFlow.Complete twoBranches 7 := by
  have built : twoBranches.toGraph.execute ofOne = .ok twoBranchesStart := rfl
  have keyed : ∀ operator < twoBranches.size,
      (twoBranches.member operator).Keyed 7 := by
    intro operator inGraph
    match operator with
    | 0 => exact Library.split_keyed
    | 1 | 2 => exact Library.statelessOp_keyed (by simp) (by simp)
    | 3 => exact ⟨fun _ => rfl, countRecords_keeps⟩
  have passes : ∀ operator < twoBranches.size, ∀ source,
      some source ∈ twoBranches.upstream operator →
        (twoBranches.member source).logic.Passes 7 := by
    intro operator inGraph source member state
    match operator with
    | 0 => simp [twoBranches] at member
    | 1 | 2 =>
        obtain rfl : source = 0 := by simpa [twoBranches] using member
        rfl
    | 3 =>
        obtain rfl | rfl : source = 1 ∨ source = 2 := by
          simpa [twoBranches] using member
        · rfl
        · rfl
  have run : Reaches (Flow.act twoBranches ofOne.workerId)
      (fun flow event => flow.Allowed twoBranches 7 event ∧
        flow.Undivided twoBranches 7 event) { toWorker := twoBranchesStart }
      undividedFlow := by
    unfold undividedFlow
    exact Follows.reaches undividedTrace .refl (by decide +kernel)
  have unwrapped : undividedFlow.Unwrapped twoBranches 7 := by
    unfold undividedFlow
    decide +kernel
  exact ⟨by unfold undividedFlow; decide +kernel,
    collection_complete built keyed passes run unwrapped⟩

theorem divided_collection :
    Reaches (Flow.act twoBranches ofOne.workerId) (Flow.Allowed twoBranches 7)
      { toWorker := twoBranchesStart } dividedFlow ∧
    dividedFlow.Unwrapped twoBranches 7 ∧
    (dividedFlow.cells 7).get? 13 = some [1] ∧
    ¬ dividedFlow.Complete twoBranches 7 := by
  refine ⟨?_, ?_, ?_, fun complete => ?_⟩
  · unfold dividedFlow
    exact Follows.reaches dividedTrace .refl (by decide +kernel)
  · unfold dividedFlow
    decide +kernel
  · unfold dividedFlow
    decide +kernel
  · have found := (complete.gathered 3 (by decide)).index
    revert found
    unfold dividedFlow
    decide +kernel

end Malstrom.Stream
