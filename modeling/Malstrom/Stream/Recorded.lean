import Malstrom.Channels.Ahead
import Malstrom.Stream.Scheduling

namespace Malstrom.Stream

open Data Channels Keyed Operators

variable {K V T S E : Type}

/-! What a snapshot records is a state the worker could have been in with
nothing between its operators: the operators run as they did, but each of them
only until the barrier. -/

/-- A barrier neither changes the state nor is answered with messages. -/
def Logic.Still (logic : Logic K V T S E) : Prop :=
  ∀ state, logic.onMessage .absBarrier state = (state, [])

namespace Library

theorem split_still : (split : Logic K V T S E).Still := fun _ => rfl

theorem statelessOp_still
    (onData : DataMessage K V T → S → S × List (DataMessage K V T))
    (onEpoch : T → S → S × List (DataMessage K V T)) :
    (statelessOp (E := E) onData onEpoch).Still := fun _ => rfl

theorem keyLocal_still (keyFunc : DataMessage K V T → K) :
    (keyLocal keyFunc : Logic K V T S E).Still := fun _ => rfl

theorem assignTimestamps_still [DecidableEq T]
    (assigner : DataMessage K V T → S → S × T) (max maxOut : T) :
    (assignTimestamps (E := E) assigner max maxOut).Still := fun _ => rfl

theorem generateEpochs_still [LT T] [DecidableLT T]
    (gen : DataMessage K V T → Option T → Option T) (onTime late : V → V)
    (encode : Option T → Bytes) :
    (generateEpochs (E := E) gen onTime late encode).Still := fun _ => rfl

theorem listParts_still (record : K → DataMessage K V T) :
    (listParts (E := E) record).Still := fun _ => rfl

theorem statelessSink_still (sink : DataMessage K V T → S → S) :
    (statelessSink (E := E) sink).Still := fun _ => rfl

theorem statefulOp_still {L : Type} [DecidableEq K]
    (operator : StatefulOp K V T V S L) (encode : IndexMap K S → Bytes) :
    (statefulOp (E := E) operator encode).Still := fun _ => rfl

end Library

theorem LogicWrapper.intoLogic_still (wrapper : LogicWrapper K V T S E) :
    wrapper.intoLogic.Still := fun _ => rfl

theorem Logic.Still.within {U : Type} {logic : Logic K V T S E}
    (still : logic.Still) {get : U → S} {put : S → U}
    (same : ∀ state, put (get state) = state) :
    (logic.within get put).Still := by
  intro state
  simp only [Logic.within, still (get state), same state]

/-- No operator of the graph has to do with other workers. -/
def Graph.Local (graph : Graph K V T S E) : Prop :=
  ∀ operator < graph.size, ∃ logic initial,
    graph.kind operator = .logic logic initial ∧ logic.Still

namespace Logic

/-- The state in which the first barrier was taken, or else the last one. -/
def recorded (logic : Logic K V T S E) : S → List (Turn K V T E) → S
  | state, [] => state
  | state, turn :: rest =>
      if turn.takesBarrier then (logic.onSchedule turn.call.external state).1
      else logic.recorded
        (logic.advance turn.call.external state turn.taken) rest

variable {logic : Logic K V T S E} {turns : List (Turn K V T E)}
  {turn : Turn K V T E}

theorem recorded_of_unpassed (state : S)
    (unpassed : turns.countP Turn.takesBarrier = 0)
    (more : List (Turn K V T E)) :
    logic.recorded state (turns ++ more) =
      logic.recorded (logic.replay state turns) more := by
  induction turns generalizing state with
  | nil => rfl
  | cons turn rest ih =>
      have none := List.countP_eq_zero.mp unpassed
      rw [List.cons_append, recorded, if_neg (none turn List.mem_cons_self),
        ih _ (List.countP_eq_zero.mpr fun other member =>
          none other (.tail _ member))]
      rfl

theorem recorded_of_passed (state : S)
    (passed : turns.countP Turn.takesBarrier ≠ 0)
    (more : List (Turn K V T E)) :
    logic.recorded state (turns ++ more) = logic.recorded state turns := by
  induction turns generalizing state with
  | nil => exact absurd rfl passed
  | cons turn rest ih =>
      rw [List.cons_append, recorded, recorded]
      split
      next => rfl
      next waiting =>
        rw [List.countP_cons_of_neg waiting] at passed
        exact ih _ passed

end Logic

/-! ### One operator -/

section

variable [DecidableEq K] [MaybeTime T] [LT T] [DecidableLT T]
  {operator shadow : StandardOperator K V T S E} {workerId : WorkerId}
  {call : Call E} {stepped : Stepped K V T S E} {logic : Logic K V T S E}
  {state : S}

/-- An operator which has only what is ahead of the barriers steps as the
operator does, as long as that takes none. -/
theorem step_ahead (body : operator.body = .logic logic state)
    (sameBody : shadow.body = operator.body)
    (sameInput : shadow.input = operator.input.ahead)
    (ran : operator.step workerId call = .ok stepped)
    (plain : stepped.taken ≠ some .absBarrier) :
    ∃ follows, shadow.step workerId call = .ok follows ∧
      follows.output = stepped.output ∧
      follows.operator.body = stepped.operator.body ∧
      follows.operator.input = stepped.operator.input.ahead := by
  simp only [StandardOperator.step, body, Logic.step] at ran
  simp only [StandardOperator.step, sameBody, body, Logic.step, sameInput]
  split at ran
  next => simp at ran
  next next' received =>
    obtain rfl := Except.ok.inj ran
    rw [Input.recv_ahead received (by simp)]
    exact ⟨_, rfl, rfl, rfl, rfl⟩
  next message next' received =>
    obtain rfl := Except.ok.inj ran
    rw [Input.recv_ahead received plain]
    exact ⟨_, rfl, rfl, rfl, rfl⟩

/-- A barrier is only handed on when it was taken. -/
theorem taken_of_output (body : operator.body = .logic logic state)
    (ran : operator.step workerId call = .ok stepped)
    (member : .absBarrier ∈ stepped.output) :
    stepped.taken = some .absBarrier := by
  have ranLogic := (StandardOperator.step_ran (by rw [body]; trivial) ran).1
  rw [body] at ranLogic
  obtain ⟨-, isOutput, -⟩ := ranLogic.of_logic
  have counted : .absBarrier ∈ stepped.output.filter Message.isCounted :=
    List.mem_filter.mpr ⟨member, rfl⟩
  rw [isOutput, logic.counted_output] at counted
  split at counted
  · exact Option.mem_toList.mp (List.mem_of_mem_filter counted)
  · cases counted

/-- Where the operator takes the barrier, the other one only runs its scheduled
part. -/
theorem step_barrier (still : logic.Still)
    (body : operator.body = .logic logic state)
    (sameBody : shadow.body = operator.body)
    (sameInput : shadow.input = operator.input.ahead)
    (ran : operator.step workerId call = .ok stepped)
    (barrier : stepped.taken = some .absBarrier) :
    ∃ follows, shadow.step workerId call = .ok follows ∧
      stepped.output = follows.output ++
        (if logic.forwards then [.absBarrier] else []) ∧
      (∀ message ∈ follows.output, message.isCounted = false) ∧
      follows.operator.body =
        .logic logic (logic.onSchedule call.external state).1 ∧
      ∀ channel, follows.operator.input.queue channel = [] := by
  simp only [StandardOperator.step, body, Logic.step] at ran
  simp only [StandardOperator.step, sameBody, body, Logic.step, sameInput]
  split at ran
  next => simp at ran
  next next' received =>
    obtain rfl := Except.ok.inj ran
    cases barrier
  next message next' received =>
    obtain rfl := Except.ok.inj ran
    obtain rfl := Option.some.inj barrier
    obtain ⟨idle, empty⟩ := Input.recv_barrier received
    rw [idle]
    refine ⟨_, rfl, ?_, logic.scheduleUncounted _ _, rfl, empty⟩
    simp only [still _, List.append_nil, Logic.forwarded, Message.isCounted,
      Bool.and_true]

end

/-! ### The barriers of a worker -/

namespace Worker

def passes (worker : Worker K V T S E) (operator : Nat) : Nat :=
  (worker.logs operator).turns.countP Turn.takesBarrier

variable {graph : Graph K V T S E} {worker : Worker K V T S E}

/-- The barriers which came on a channel are those its source has taken. -/
theorem barriers_sent (isLocal : graph.Local) (sound : worker.Sound graph)
    (kept : worker.Kept graph) {operator channel source : Nat}
    (inGraph : operator < graph.size)
    (isSource : (graph.upstream operator)[channel]? = some (some source)) :
    ((worker.logs operator).sent channel).countP Message.isBarrier =
      worker.passes source := by
  have member : some source ∈ graph.upstream operator :=
    List.mem_of_getElem? isSource
  have earlier := graph.earlier operator inGraph source member
  have sourceIn : source < graph.size := by omega
  obtain ⟨logic, initial, isLogic, -⟩ := isLocal source sourceIn
  have states := (kept source sourceIn).states
  simp only [isLogic] at states
  obtain ⟨state, -, body, -⟩ := states
  have balance := (kept source sourceIn).barriers
    (((sound.wired source sourceIn).forwards).trans
      (graph.forwards operator inGraph source member))
  rw [body] at balance
  rw [← countP_isBarrier_counted,
    sound.linked operator inGraph channel _ isSource]
  simp only [issued, countP_isBarrier_counted]
  simpa [Body.pending, passes] using balance.symm

theorem barriers_queued (sound : worker.Sound graph)
    {operator channel : Nat} (inGraph : operator < graph.size)
    (inRange : channel < (graph.upstream operator).length) :
    ((worker.logs operator).sent channel).countP Message.isBarrier =
      worker.passes operator +
        ((worker.operators operator).input.queue channel).countP
          Message.isBarrier := by
  obtain ⟨-, -, -, split, served⟩ := sound.wired operator inGraph
  rw [split channel, List.countP_append, Log.barriers_received served inRange]
  rfl

theorem passes_le (isLocal : graph.Local) (sound : worker.Sound graph)
    (kept : worker.Kept graph) {operator channel source : Nat}
    (inGraph : operator < graph.size)
    (isSource : (graph.upstream operator)[channel]? = some (some source)) :
    worker.passes operator ≤ worker.passes source := by
  obtain ⟨inRange, -⟩ := List.getElem?_eq_some_iff.mp isSource
  rw [← barriers_sent isLocal sound kept inGraph isSource,
    barriers_queued sound inGraph inRange]
  omega

theorem queued_iff (isLocal : graph.Local) (sound : worker.Sound graph)
    (kept : worker.Kept graph) {operator channel source : Nat}
    (inGraph : operator < graph.size)
    (isSource : (graph.upstream operator)[channel]? = some (some source))
    (unpassed : worker.passes operator = 0) :
    .absBarrier ∈ (worker.operators operator).input.queue channel ↔
      worker.passes source ≠ 0 := by
  obtain ⟨inRange, -⟩ := List.getElem?_eq_some_iff.mp isSource
  have queued := barriers_queued sound inGraph inRange
  rw [barriers_sent isLocal sound kept inGraph isSource, unpassed,
    Nat.zero_add] at queued
  constructor
  · intro member
    have positive := List.countP_pos_iff.mpr
      ⟨_, member, (rfl : Message.isBarrier (.absBarrier : Message K V T) = true)⟩
    omega
  · intro passed
    obtain ⟨message, member, isBarrier⟩ := List.countP_pos_iff.mp
      (show 0 < ((worker.operators operator).input.queue channel).countP
        Message.isBarrier by omega)
    cases message <;> first | exact member | simp [Message.isBarrier] at isBarrier

end Worker

/-! ### The worker which stops at the barrier -/

/-- What is ahead of the barriers after messages were sent on every channel. -/
theorem ahead_sendAll (input : Input K V T)
    (messages cut : Nat → List (Message K V T))
    (same : ∀ channel < input.receivers.length,
      ahead (input.queue channel ++ messages channel) =
        ahead (input.queue channel) ++ cut channel) :
    (sendAll input messages).ahead = sendAll input.ahead cut := by
  have receivers : (input.receivers.mapIdx fun channel upstream =>
      { upstream with receiver := upstream.receiver ++ messages channel }).map
        UpstreamState.ahead =
      (input.receivers.map UpstreamState.ahead).mapIdx
        fun channel upstream =>
          { upstream with receiver := upstream.receiver ++ cut channel } := by
    refine List.ext_getElem (by simp) fun channel inRange _ => ?_
    have linked : channel < input.receivers.length := by simpa using inRange
    have cuts := same channel linked
    simp only [Input.queue, List.getElem?_eq_getElem linked] at cuts
    simp only [List.getElem_map, List.getElem_mapIdx, UpstreamState.ahead]
    rw [cuts]
  unfold sendAll Input.ahead
  rw [receivers]

theorem ahead_of_quiet {input : Input K V T}
    (silent : ∀ channel, .absBarrier ∉ input.queue channel) :
    input.ahead = input := by
  have receivers : input.receivers.map UpstreamState.ahead =
      input.receivers := by
    refine List.ext_getElem (by simp) fun channel inRange linked => ?_
    have none := silent channel
    simp only [Input.queue, List.getElem?_eq_getElem linked] at none
    simp only [List.getElem_map, UpstreamState.ahead, ahead_of_silent none]
  unfold Input.ahead
  rw [receivers]

def Worker.works (graph : Graph K V T S E) : Worker.Event K V T S E → Prop
  | .command _ => False
  | .step operator _ => operator < graph.size
  | .deliver _ _ _ | .report _ _ => True

instance (graph : Graph K V T S E) :
    (event : Worker.Event K V T S E) → Decidable (Worker.works graph event)
  | .command _ => isFalse id
  | .step operator _ => inferInstanceAs (Decidable (operator < graph.size))
  | .deliver _ _ _ | .report _ _ => isTrue trivial

/-- The second worker has run each operator as the first one, up to its
barrier. -/
structure Worker.Shadowed (graph : Graph K V T S E)
    (worker shadow : Worker K V T S E) : Prop where
  states : ∀ operator < graph.size, ∃ logic initial state,
    graph.kind operator = .logic logic initial ∧
      (worker.logs operator).origin = .logic logic state ∧
      (shadow.operators operator).body = .logic logic
        (logic.recorded state (worker.logs operator).turns)
  ahead : ∀ operator < graph.size, worker.passes operator = 0 →
    (shadow.operators operator).input =
      (worker.operators operator).input.ahead
  empty : ∀ operator < graph.size, worker.passes operator ≠ 0 →
    ∀ channel, (shadow.operators operator).input.queue channel = []

namespace Worker

variable {graph : Graph K V T S E} {worker shadow next : Worker K V T S E}

theorem shadowed_begin (isLocal : graph.Local) (kept : worker.Kept graph)
    (quiet : worker.strongCount graph ≤ 1) :
    Shadowed graph (worker.begin graph .snapshot) worker where
  states operator inGraph := by
    obtain ⟨logic, initial, isLogic, -⟩ := isLocal operator inGraph
    have states := (kept operator inGraph).states
    simp only [isLogic] at states
    obtain ⟨origin, -, body, -⟩ := states
    exact ⟨logic, initial, _, isLogic, body, body⟩
  ahead operator inGraph _ := by
    have silent : ∀ channel, .absBarrier ∉
        (worker.operators operator).input.queue channel := by
      intro channel member
      have none := (strongCount_le_one.mp quiet operator inGraph).1 channel
      have counted := List.filter_eq_nil_iff.mp none _ member
      exact counted rfl
    have cuts := ahead_sendAll (worker.operators operator).input
      (graph.routed none [.absBarrier] operator)
      (fun _ => []) fun channel _ => by
        rw [ahead_append_of_silent (silent channel),
          ahead_of_silent (silent channel)]
        congr 1
        unfold Graph.routed
        split
        · rfl
        · rfl
    rw [sendAll_nothing, ahead_of_quiet silent] at cuts
    exact cuts.symm
  empty operator _ passed := absurd rfl passed

section

variable {operator : Nat} {call : Call E} {stepped : Stepped K V T S E}

theorem passes_step (other : Nat) :
    ((worker.install graph operator call stepped).hand graph (some operator)
      stepped.output).passes other =
      worker.passes other + if other = operator then
        (stepped.taken.any Message.isBarrier).toNat else 0 := by
  unfold passes
  simp only [hand, install, Function.update_apply]
  split
  next same =>
    subst same
    rw [List.countP_append, List.countP_singleton]
    simp only [Turn.takesBarrier, Stepped.turn]
    by_cases barrier : stepped.taken.any Message.isBarrier = true
    · simp [barrier]
    · simp [Bool.not_eq_true _ ▸ barrier]
  next => rfl

/-- Behind its barrier an operator sends nothing which counts. -/
theorem Shadowed.behind (isLocal : graph.Local) (sound : worker.Sound graph)
    (kept : worker.Kept graph) (shadowed : Shadowed graph worker shadow)
    (passed : worker.passes operator ≠ 0) :
    Shadowed graph ((worker.install graph operator call stepped).hand graph
      (some operator) stepped.output) shadow where
  states other otherIn := by
    obtain ⟨logic, initial, state, isLogic, origin, body⟩ :=
      shadowed.states other otherIn
    by_cases same : other = operator
    · subst same
      refine ⟨logic, initial, state, isLogic, ?_, ?_⟩
      · simpa [hand, install] using origin
      · rw [body]
        simp only [hand, install, Function.update_self,
          logic.recorded_of_passed state passed]
    · refine ⟨logic, initial, state, isLogic, ?_, ?_⟩
      · simpa [hand, install, same] using origin
      · simpa [hand, install, same] using body
  ahead other otherIn unpassed := by
    rw [passes_step] at unpassed
    have before : worker.passes other = 0 := by omega
    have different : other ≠ operator := by
      rintro rfl
      exact passed before
    rw [shadowed.ahead other otherIn before]
    have cuts := ahead_sendAll (worker.operators other).input
      (graph.routed (some operator) stepped.output other)
      (fun _ => []) fun channel _ => by
        rw [List.append_nil]
        by_cases isSource : (graph.upstream other)[channel]? =
            some (some operator)
        · exact ahead_append_of_barrier
            ((queued_iff isLocal sound kept otherIn isSource before).mpr
              passed) _
        · simp [Graph.routed, isSource]
    rw [sendAll_nothing] at cuts
    simpa [hand, install, different] using cuts.symm
  empty other otherIn turned := by
    by_cases before : worker.passes other = 0
    · rw [passes_step, before, if_neg] at turned
      · exact absurd rfl turned
      · rintro rfl
        exact passed before
    · exact shadowed.empty other otherIn before

end

end Worker

/-- What a step of the second worker has to do with one of the first. -/
structure Followed (logic : Logic K V T S E) (state : S)
    (turns : List (Turn K V T E)) (taken : Option (Message K V T))
    (stepped follows : Stepped K V T S E) : Prop where
  output : ∃ barriers, stepped.output = follows.output ++ barriers ∧
    ∀ message ∈ barriers, message = .absBarrier
  silent : .absBarrier ∉ follows.output
  body : follows.operator.body = .logic logic (logic.recorded state turns)
  ahead : taken ≠ some .absBarrier →
    follows.operator.input = stepped.operator.input.ahead
  empty : taken = some .absBarrier →
    ∀ channel, follows.operator.input.queue channel = []

namespace Worker

variable [DecidableEq K] [MaybeTime T] [LT T] [DecidableLT T]
  {graph : Graph K V T S E} {worker shadow next : Worker K V T S E}
  {workerId : WorkerId} {operator : Nat} {call : Call E}
  {stepped : Stepped K V T S E}

theorem Shadowed.follow (isLocal : graph.Local) (kept : worker.Kept graph)
    (shadowed : Shadowed graph worker shadow) (inGraph : operator < graph.size)
    (unpassed : worker.passes operator = 0)
    (ran : (worker.operators operator).step workerId call = .ok stepped) :
    ∃ logic initial state follows,
      graph.kind operator = .logic logic initial ∧
      (worker.logs operator).origin = .logic logic state ∧
      (shadow.operators operator).step workerId call = .ok follows ∧
      Followed logic state ((worker.logs operator).turns ++
        [stepped.turn call (worker.operators operator).input]) stepped.taken
          stepped follows := by
  obtain ⟨logic, initial, isLogic, still⟩ := isLocal operator inGraph
  obtain ⟨same, _, state, isSame, origin, recorded⟩ :=
    shadowed.states operator inGraph
  obtain ⟨rfl, -⟩ := Kind.logic.inj (isSame.symm.trans isLogic)
  have states := (kept operator inGraph).states
  simp only [isLogic] at states
  obtain ⟨begun, isOrigin, body, -⟩ := states
  have sameState : state = begun := by
    simpa using origin.symm.trans isOrigin
  subst sameState
  have sameBody : (shadow.operators operator).body =
      (worker.operators operator).body := by
    have none := same.recorded_of_unpassed state unpassed []
    rw [List.append_nil] at none
    rw [recorded, body, none]
    rfl
  have sameInput := shadowed.ahead operator inGraph unpassed
  refine ⟨same, initial, state, ?_⟩
  by_cases barrier : stepped.taken = some .absBarrier
  · obtain ⟨follows, steps, output, uncounted, after, empty⟩ :=
      step_barrier still body sameBody sameInput ran barrier
    refine ⟨follows, isLogic, origin, steps, ⟨_, output, ?_⟩, ?_, ?_,
      fun plain => absurd barrier plain, fun _ => empty⟩
    · intro message member
      split at member
      · exact List.mem_singleton.mp member
      · cases member
    · intro member
      have counted := uncounted _ member
      cases counted
    · rw [after, same.recorded_of_unpassed state unpassed]
      simp [Logic.recorded, Turn.takesBarrier, Stepped.turn, barrier,
        Message.isBarrier]
  · obtain ⟨follows, steps, output, after, ahead⟩ :=
      step_ahead body sameBody sameInput ran barrier
    have ranLogic := (StandardOperator.step_ran (by rw [body]; trivial) ran).1
    rw [body] at ranLogic
    obtain ⟨isAfter, -, -⟩ := ranLogic.of_logic
    refine ⟨follows, isLogic, origin, steps, ⟨[], ?_, ?_⟩, ?_, ?_,
      fun _ => ahead, fun taken => absurd taken barrier⟩
    · rw [output, List.append_nil]
    · intro message member
      cases member
    · rw [output]
      exact fun member => barrier (taken_of_output body ran member)
    · rw [after, isAfter, same.recorded_of_unpassed state unpassed]
      have plain : (stepped.turn call
          (worker.operators operator).input).takesBarrier ≠ true :=
        fun takes => barrier (Turn.takesBarrier_iff.mp takes)
      rw [Logic.recorded, if_neg plain]
      rfl

omit [DecidableEq K] [MaybeTime T] [LT T] [DecidableLT T] in
/-- What comes ahead of a barrier on a channel of messages behind which only
barriers were sent. -/
theorem ahead_routed {follows barriers : List (Message K V T)}
    (silent : .absBarrier ∉ follows)
    (only : ∀ message ∈ barriers, message = .absBarrier)
    (source : Option Nat) (target channel : Nat) :
    ahead (graph.routed source (follows ++ barriers) target channel) =
      graph.routed source follows target channel := by
  unfold Graph.routed
  split
  · rw [List.filter_append, ahead_append_of_silent]
    · have nothing : ∀ messages : List (Message K V T),
          (∀ message ∈ messages, message = .absBarrier) →
            ahead messages = [] := by
        intro messages barred
        cases messages with
        | nil => rfl
        | cons message rest =>
            rw [barred message List.mem_cons_self]
            rfl
      rw [nothing _ fun message member =>
        only message (List.mem_of_mem_filter member), List.append_nil]
    · exact fun member => silent (List.mem_of_mem_filter member)
  · rfl

/-- Up to its barrier the second worker can step an operator as the first one
does. -/
theorem Shadowed.before (isLocal : graph.Local) (sound : worker.Sound graph)
    (kept : worker.Kept graph) (shadowed : Shadowed graph worker shadow)
    (inGraph : operator < graph.size) (unpassed : worker.passes operator = 0)
    (ran : (worker.operators operator).step workerId call = .ok stepped) :
    ∃ last, shadow.act graph workerId (.step operator call) = .ok last ∧
      Shadowed graph ((worker.install graph operator call stepped).hand graph
        (some operator) stepped.output) last := by
  obtain ⟨logic, initial, state, follows, isLogic, origin, steps, followed⟩ :=
    shadowed.follow isLocal kept inGraph unpassed ran
  obtain ⟨barriers, output, only⟩ := followed.output
  refine ⟨(shadow.install graph operator call follows).hand graph
    (some operator) follows.output, ?_, ?_, ?_, ?_⟩
  · simp only [act, steps]
  · intro other otherIn
    by_cases same : other = operator
    · subst same
      refine ⟨logic, initial, state, isLogic, ?_, ?_⟩
      · simpa [hand, install] using origin
      · simpa [hand, install] using followed.body
    · obtain ⟨logic, initial, state, isLogic, origin, body⟩ :=
        shadowed.states other otherIn
      refine ⟨logic, initial, state, isLogic, ?_, ?_⟩
      · simpa [hand, install, same] using origin
      · simpa [hand, install, same] using body
  · intro other otherIn waits
    rw [passes_step] at waits
    have before : worker.passes other = 0 := by omega
    by_cases same : other = operator
    · subst same
      have plain : stepped.taken ≠ some .absBarrier := by
        intro barrier
        simp [barrier, Message.isBarrier] at waits
      simpa [hand, install, routed_earlier inGraph le_rfl] using
        followed.ahead plain
    · have cuts := ahead_sendAll (worker.operators other).input
        (graph.routed (some operator) stepped.output other)
        (graph.routed (some operator) follows.output other)
        fun channel _ => by
          by_cases isSource : (graph.upstream other)[channel]? =
              some (some operator)
          · have silent : .absBarrier ∉
                (worker.operators other).input.queue channel := fun member =>
              (queued_iff isLocal sound kept otherIn isSource before).mp
                member unpassed
            rw [ahead_append_of_silent silent, ahead_of_silent silent, output,
              ahead_routed followed.silent only]
          · simp [Graph.routed, isSource]
      rw [← shadowed.ahead other otherIn before] at cuts
      simpa [hand, install, same] using cuts.symm
  · intro other otherIn turned channel
    by_cases same : other = operator
    · subst same
      rw [passes_step, unpassed] at turned
      have barrier : stepped.taken = some .absBarrier := by
        cases taken : stepped.taken with
        | none => simp [taken] at turned
        | some message =>
            cases message <;> simp [taken, Message.isBarrier] at turned ⊢
      simpa [hand, install, routed_earlier inGraph le_rfl] using
        followed.empty barrier channel
    · rw [passes_step, if_neg same, Nat.add_zero] at turned
      have nothing : graph.routed (some operator) follows.output other =
          fun _ => [] := by
        funext channel
        unfold Graph.routed
        split
        next isSource =>
          have fewer := passes_le isLocal sound kept otherIn isSource
          omega
        next => rfl
      simpa [hand, install, same, nothing] using
        shadowed.empty other otherIn turned channel

/-- What comes from outside does not concern operators without remotes. -/
theorem Shadowed.outside (shadowed : Shadowed graph worker shadow)
    {event : Event K V T S E} (works : Worker.works graph event)
    (foreign : ∀ operator call, event ≠ .step operator call)
    (stepped : worker.act graph workerId event = .ok next) :
    Shadowed graph next shadow := by
  cases event with
  | command procedure => exact works.elim
  | step operator call => exact absurd rfl (foreign operator call)
  | deliver operator remote message =>
      obtain rfl := Except.ok.inj stepped
      refine ⟨shadowed.states, ?_, shadowed.empty⟩
      intro other otherIn unpassed
      rw [shadowed.ahead other otherIn unpassed]
      simp only [Function.update_apply]
      split
      next same => rw [same]
      next => rfl
  | report operator report =>
      obtain rfl := Except.ok.inj stepped
      refine ⟨shadowed.states, ?_, shadowed.empty⟩
      intro other otherIn unpassed
      rw [shadowed.ahead other otherIn unpassed]
      simp only [Function.update_apply]
      split
      next same => rw [same]
      next => rfl

theorem Shadowed.act (isLocal : graph.Local) (sound : worker.Sound graph)
    (kept : worker.Kept graph) (shadowed : Shadowed graph worker shadow)
    {event : Event K V T S E} (works : Worker.works graph event)
    (stepped : worker.act graph workerId event = .ok next) :
    ∃ last, Reaches (Worker.act graph workerId)
        (fun _ event => Worker.works graph event) shadow last ∧
      Shadowed graph next last := by
  cases event with
  | command procedure => exact works.elim
  | step operator call =>
      simp only [Worker.act] at stepped
      split at stepped
      next => simp at stepped
      next result ran =>
        obtain rfl := Except.ok.inj stepped
        by_cases unpassed : worker.passes operator = 0
        · obtain ⟨last, steps, relates⟩ :=
            shadowed.before isLocal sound kept works unpassed ran
          exact ⟨last, .tail .refl works steps, relates⟩
        · exact ⟨shadow, .refl, shadowed.behind isLocal sound kept unpassed⟩
  | deliver operator remote message =>
      exact ⟨shadow, .refl, shadowed.outside works (by simp) stepped⟩
  | report operator report =>
      exact ⟨shadow, .refl, shadowed.outside works (by simp) stepped⟩

omit [DecidableEq K] [MaybeTime T] [LT T] [DecidableLT T] in
theorem allowed_of_works {event : Event K V T S E}
    (works : Worker.works graph event) :
    worker.allowed graph workerId event := by
  cases event with
  | command procedure => exact works.elim
  | step operator call => exact works
  | deliver operator remote message => trivial
  | report operator report => trivial

theorem procedure_of_works {event : Event K V T S E}
    (works : Worker.works graph event)
    (stepped : worker.act graph workerId event = .ok next) :
    next.procedure = worker.procedure := by
  cases event with
  | command procedure => exact works.elim
  | step operator call => exact (act_step works stepped).2.1
  | deliver operator remote message =>
      obtain rfl := Except.ok.inj stepped
      rfl
  | report operator report =>
      obtain rfl := Except.ok.inj stepped
      rfl

/-- What holds of a worker holds until the next command. -/
theorem Ready.working (ready : worker.Ready graph workerId)
    (run : Reaches (Worker.act graph workerId)
      (fun _ event => Worker.works graph event) worker next) :
    next.Ready graph workerId ∧ next.procedure = worker.procedure := by
  refine run.invariant (fun state => state.Ready graph workerId ∧
    state.procedure = worker.procedure) ⟨ready, rfl⟩ ?_
  intro state event later _ holds works stepped
  exact ⟨holds.1.act (allowed_of_works works) stepped,
    (procedure_of_works works stepped).trans holds.2⟩

omit [DecidableEq K] [MaybeTime T] [LT T] [DecidableLT T] in
/-- Once every operator is behind its barrier, the second worker has nothing in
its channels and is in the states which were written. -/
theorem Shadowed.written (shadowed : Shadowed graph worker shadow)
    (inGraph : operator < graph.size) {before after : List (Turn K V T E)}
    {turn : Turn K V T E}
    (passed : Passed graph worker operator before turn after) :
    (∀ channel, (shadow.operators operator).input.queue channel = []) ∧
    ∃ logic initial state, graph.kind operator = .logic logic initial ∧
      (shadow.operators operator).body = .logic logic state ∧
      (worker.persisted.filter fun write =>
          decide (write.1 = graph.operatorId operator)).map Prod.snd =
        (logic.persist.map fun write => write state).toList := by
  have takes : turn.takesBarrier = true :=
    Turn.takesBarrier_iff.mpr passed.takes
  have here : worker.passes operator ≠ 0 := by
    unfold passes
    rw [passed.split, List.countP_append, List.countP_cons_of_pos takes]
    omega
  refine ⟨shadowed.empty operator inGraph here, ?_⟩
  obtain ⟨logic, initial, state, isLogic, origin, body⟩ :=
    shadowed.states operator inGraph
  have written := passed.written
  simp only [isLogic] at written
  obtain ⟨begun, isOrigin, persisted⟩ := written
  obtain rfl : state = begun := by simpa using origin.symm.trans isOrigin
  have ahead : before.countP Turn.takesBarrier = 0 := by
    rw [List.countP_eq_zero]
    intro other member isBarrier
    exact passed.alone other (List.mem_append_left _ member)
      (Turn.takesBarrier_iff.mp isBarrier)
  rw [passed.split, logic.recorded_of_unpassed state ahead, Logic.recorded,
    if_pos takes] at body
  exact ⟨logic, initial, _, isLogic, body, persisted⟩

end Worker

/-- The states which a snapshot of a worker without remotes has written when it
ends are those of a state the worker could have been in instead, with no message
in any channel: the operators get there from where the snapshot began. -/
theorem snapshot_recorded [DecidableEq K] [MaybeTime T] [LT T] [DecidableLT T]
    {graph : Graph K V T S E} {context : BuildContext}
    {start settled worker : Worker K V T S E} (isLocal : graph.Local)
    (built : graph.execute context = .ok start)
    (life : Reaches (Worker.act graph context.workerId)
      (Worker.allowed graph context.workerId) start settled)
    (begins : settled.allowed graph context.workerId (.command .snapshot))
    (run : Reaches (Worker.act graph context.workerId)
      (fun _ event => Worker.works graph event)
      (settled.begin graph .snapshot) worker)
    (exits : worker.strongCount graph ≤ 1) :
    ∃ recorded,
      Reaches (Worker.act graph context.workerId)
        (fun _ event => Worker.works graph event) settled recorded ∧
      ∀ operator < graph.size,
        (∀ channel,
          (recorded.operators operator).input.queue channel = []) ∧
        ∃ logic initial state, graph.kind operator = .logic logic initial ∧
          (recorded.operators operator).body = .logic logic state ∧
          (worker.persisted.filter fun write =>
              decide (write.1 = graph.operatorId operator)).map Prod.snd =
            (logic.persist.map fun write => write state).toList := by
  have ready := Worker.Ready.reaches built life
  have begun : (settled.begin graph .snapshot).Ready graph context.workerId :=
    ready.act begins rfl
  obtain ⟨recorded, reaches, shadowed⟩ := run.simulated
    (Worker.Shadowed graph)
    (Worker.shadowed_begin isLocal ready.kept begins.1)
    fun state event next shadow prior related works stepped =>
      related.act isLocal (begun.working prior).1.sound
        (begun.working prior).1.kept works stepped
  have ended := begun.working run
  refine ⟨recorded, reaches, fun operator inGraph => ?_⟩
  obtain ⟨before, turn, after, passed⟩ := Worker.exists_passed ended.1.sound
    ended.1.kept ended.2 exits inGraph
  exact shadowed.written inGraph passed

/-! A source which counts on, the epochs of its records, and a sink. -/

def counter : LogicWrapper Nat Nat Nat (Option Nat) Unit where
  onSchedule _ state :=
    (some (state.getD 0 + 1), [⟨0, state.getD 0, state.getD 0⟩], none)
  onData _ state := (state, [])
  onEpoch _ state := (state, [], none)
  onBarrier state := state.toList.map UInt8.ofNat
  onRescale _ state := state
  onSuspend state := state
  onCollect _ state := state
  onAcquire moved state := (state, moved)

def laneKind : Nat → Kind Nat Nat Nat (Option Nat) Unit
  | 0 => .logic counter.intoLogic none
  | 1 => .logic (Library.generateEpochs
      (fun message _ => some message.timestamp) id id
      fun epoch => epoch.toList.map UInt8.ofNat) none
  | _ => .logic (Library.statelessSink
      fun message _ => some message.value) none

theorem laneKind_forwards (operator : Nat) (inGraph : operator + 1 < 3) :
    (laneKind operator).forwards = true :=
  match operator, inGraph with
  | 0, _ | 1, _ => rfl
  | more + 2, inGraph => absurd inGraph (by omega)

def lane : Graph Nat Nat Nat (Option Nat) Unit :=
  .inRow 3 (fun operator => 10 + operator) laneKind laneKind_forwards

theorem lane_local : lane.Local := by
  intro operator inGraph
  match operator with
  | 0 => exact ⟨_, _, rfl, counter.intoLogic_still⟩
  | 1 => exact ⟨_, _, rfl, Library.generateEpochs_still _ _ _ _⟩
  | more + 2 => exact ⟨_, _, rfl, Library.statelessSink_still _⟩

def laneStart : Worker Nat Nat Nat (Option Nat) Unit where
  operators := lane.intoRunnable ofTwo
  procedure := none
  persisted := []
  logs operator := Log.start (lane.intoRunnable ofTwo operator)

def laneSchedule (operator : Nat) :
    Worker.Event Nat Nat Nat (Option Nat) Unit :=
  .step operator ⟨(), 0⟩

/-- Two records are sent and one of them has got its epoch. -/
def laneLife : List (Worker.Event Nat Nat Nat (Option Nat) Unit) :=
  [laneSchedule 0, laneSchedule 0, laneSchedule 1]

/-- The source sends its fourth record when it is behind the barrier. -/
def laneTrace : List (Worker.Event Nat Nat Nat (Option Nat) Unit) :=
  [laneSchedule 1, laneSchedule 0, laneSchedule 1, laneSchedule 0,
    laneSchedule 1, laneSchedule 1, laneSchedule 2, laneSchedule 2,
    laneSchedule 2, laneSchedule 2, laneSchedule 2, laneSchedule 2,
    laneSchedule 2]

@[irreducible] def laneSettled : Worker Nat Nat Nat (Option Nat) Unit :=
  replay (Worker.act lane 0) laneStart laneLife

@[irreducible] def laneWorker : Worker Nat Nat Nat (Option Nat) Unit :=
  replay (Worker.act lane 0) (laneSettled.begin lane .snapshot) laneTrace

/-- The source has written that it has sent three records, and the operator
behind it that it has seen these three. -/
theorem lane_recorded :
    laneWorker.persisted = [(10, [3]), (11, [2])] ∧
    ∃ recorded,
      Reaches (Worker.act lane ofTwo.workerId)
        (fun _ event => Worker.works lane event) laneSettled recorded ∧
      ∀ operator < lane.size,
        (∀ channel,
          (recorded.operators operator).input.queue channel = []) ∧
        ∃ logic initial state, lane.kind operator = .logic logic initial ∧
          (recorded.operators operator).body = .logic logic state ∧
          (laneWorker.persisted.filter fun write =>
              decide (write.1 = lane.operatorId operator)).map Prod.snd =
            (logic.persist.map fun write => write state).toList := by
  have built : lane.execute ofTwo = .ok laneStart := rfl
  have life : Reaches (Worker.act lane ofTwo.workerId)
      (Worker.allowed lane ofTwo.workerId) laneStart laneSettled := by
    unfold laneSettled
    exact Follows.reaches laneLife .refl (by decide +kernel)
  have run : Reaches (Worker.act lane ofTwo.workerId)
      (fun _ event => Worker.works lane event)
      (laneSettled.begin lane .snapshot) laneWorker := by
    unfold laneWorker
    exact Follows.reaches laneTrace .refl (by decide +kernel)
  exact ⟨by decide +kernel, snapshot_recorded lane_local built life
    (by decide +kernel) run (by decide +kernel)⟩

end Malstrom.Stream
