import Malstrom.Operators.PerKey
import Malstrom.Operators.Restart
import Malstrom.Stream.Meaning
import Malstrom.Stream.Recorded

namespace Malstrom.Stream

open Data Channels Keyed Operators Snapshot

variable {K V T S E : Type}

/-! What a worker does which is built from a snapshot of another one: it goes on
with the histories of that one, as they were when each operator passed its
barrier on. -/

/-! ### Histories up to the barrier -/

/-- The second worker has sent what the first one has, each operator only up to
its barrier. -/
structure Account.Shadowed (graph : Graph K V T S E)
    (account shadow : Account K V T S E) : Prop where
  worker : Worker.Shadowed graph account.toWorker shadow.toWorker
  same : ∀ operator < graph.size, account.passes operator = 0 →
    shadow.sent (some operator) = account.sent (some operator)
  part : ∀ operator < graph.size,
    shadow.sent (some operator) <+: account.sent (some operator)

namespace Account

variable {graph : Graph K V T S E} {account shadow next : Account K V T S E}

theorem shadowed_begin (isLocal : graph.Local)
    (kept : account.toWorker.Kept graph)
    (quiet : account.strongCount graph ≤ 1) :
    Shadowed graph (account.begin graph .snapshot) account where
  worker := Worker.shadowed_begin isLocal kept quiet
  same operator _ _ := by simp [begin]
  part operator _ := by simp [begin]

variable [DecidableEq K] [MaybeTime T] [LT T] [DecidableLT T]
  {workerId : WorkerId} {operator : Nat} {call : Call E}
  {stepped : Stepped K V T S E}

theorem Shadowed.before (isLocal : graph.Local)
    (sound : account.toWorker.Sound graph)
    (kept : account.toWorker.Kept graph)
    (shadowed : Shadowed graph account shadow) (inGraph : operator < graph.size)
    (unpassed : account.passes operator = 0)
    (ran : (account.operators operator).step workerId call = .ok stepped) :
    ∃ last, shadow.act graph workerId (.step operator call) = .ok last ∧
      Shadowed graph (account.called graph operator call stepped) last := by
  obtain ⟨logic, initial, state, follows, isLogic, origin, steps, followed⟩ :=
    shadowed.worker.follow isLocal kept inGraph unpassed ran
  obtain ⟨last, acts, relates⟩ :=
    shadowed.worker.before isLocal sound kept inGraph unpassed ran
  obtain ⟨barriers, output, only⟩ := followed.output
  have states := (kept operator inGraph).states
  simp only [isLogic] at states
  obtain ⟨current, -, body, -⟩ := states
  have isLast : last = (shadow.called graph operator call follows).toWorker := by
    simp only [Worker.act, steps] at acts
    exact (Except.ok.inj acts).symm
  refine ⟨shadow.called graph operator call follows, by simp only [act, steps],
    isLast ▸ relates, ?_, ?_⟩
  · intro other otherIn waits
    change ((account.toWorker.install graph operator call stepped).hand graph
      (some operator) stepped.output).passes other = 0 at waits
    rw [Worker.passes_step] at waits
    have before : account.passes other = 0 := by omega
    by_cases isCalled : other = operator
    · subst isCalled
      have none : barriers = [] := by
        refine List.eq_nil_iff_forall_not_mem.mpr fun message member => ?_
        have handed : .absBarrier ∈ stepped.output := by
          rw [output, ← only message member]
          exact List.mem_append_right _ member
        simp [taken_of_output body ran handed, Message.isBarrier] at waits
      simp [called, shadowed.same other otherIn before, output, none]
    · simp [called, isCalled, shadowed.same other otherIn before]
  · intro other otherIn
    by_cases isCalled : other = operator
    · subst isCalled
      simp only [called, Function.update_self,
        shadowed.same other otherIn unpassed, output]
      rw [List.prefix_append_right_inj]
      exact List.prefix_append _ _
    · simpa [called, isCalled] using shadowed.part other otherIn

omit [DecidableEq K] [MaybeTime T] [LT T] [DecidableLT T] in
theorem Shadowed.behind (isLocal : graph.Local)
    (sound : account.toWorker.Sound graph)
    (kept : account.toWorker.Kept graph)
    (shadowed : Shadowed graph account shadow)
    (passed : account.passes operator ≠ 0) :
    Shadowed graph (account.called graph operator call stepped) shadow where
  worker := shadowed.worker.behind isLocal sound kept passed
  same other otherIn waits := by
    change ((account.toWorker.install graph operator call stepped).hand graph
      (some operator) stepped.output).passes other = 0 at waits
    rw [Worker.passes_step] at waits
    have before : account.passes other = 0 := by omega
    have different : other ≠ operator := by
      rintro rfl
      exact passed before
    simp [called, different, shadowed.same other otherIn before]
  part other otherIn := by
    refine (shadowed.part other otherIn).trans ?_
    simp only [called, Function.update_apply]
    split
    next isCalled =>
      rw [Option.some.inj isCalled]
      exact List.prefix_append _ _
    next => exact List.prefix_rfl

theorem Shadowed.act (isLocal : graph.Local)
    (sound : account.toWorker.Sound graph)
    (kept : account.toWorker.Kept graph)
    (shadowed : Shadowed graph account shadow)
    {event : Worker.Event K V T S E} (works : Worker.works graph event)
    (stepped : account.act graph workerId event = .ok next) :
    ∃ last, Reaches (Account.act graph workerId)
        (fun _ event => Worker.works graph event) shadow last ∧
      Shadowed graph next last := by
  cases event with
  | command procedure => exact works.elim
  | step operator call =>
      simp only [Account.act] at stepped
      split at stepped
      next => cases stepped
      next result ran =>
        obtain rfl := Except.ok.inj stepped
        by_cases unpassed : account.passes operator = 0
        · obtain ⟨last, acts, relates⟩ :=
            shadowed.before isLocal sound kept works unpassed ran
          exact ⟨last, .tail .refl works acts, relates⟩
        · exact ⟨shadow, .refl, shadowed.behind isLocal sound kept unpassed⟩
  | deliver operator remote message =>
      obtain rfl := Except.ok.inj stepped
      refine ⟨shadow, .refl, ?_, shadowed.same, shadowed.part⟩
      have steps : account.toWorker.act graph workerId
          (.deliver operator remote message) = .ok _ := rfl
      exact shadowed.worker.outside works (by simp) steps
  | report operator report =>
      obtain rfl := Except.ok.inj stepped
      refine ⟨shadow, .refl, ?_, shadowed.same, shadowed.part⟩
      have steps : account.toWorker.act graph workerId
          (.report operator report) = .ok _ := rfl
      exact shadowed.worker.outside works (by simp) steps

theorem worker_reaches {start : Account K V T S E}
    {permitted : Worker K V T S E → Worker.Event K V T S E → Prop}
    (run : Reaches (Account.act graph workerId)
      (fun account event => permitted account.toWorker event) start account) :
    Reaches (Worker.act graph workerId) permitted start.toWorker
      account.toWorker := by
  induction run with
  | refl => exact .refl
  | @tail state next event _ isPermitted stepped ih =>
      refine ih.tail isPermitted ?_
      rw [act_worker, stepped]
      rfl

end Account

/-! ### The operators built again -/

def Kind.restored (state : S) : Kind K V T S E → Kind K V T S E
  | .logic built _ => .logic built state
  | .distribute partitioner => .distribute partitioner

@[simp] theorem Kind.forwards_restored (state : S) (kind : Kind K V T S E) :
    (kind.restored state).forwards = kind.forwards := by
  cases kind <;> rfl

/-- The same program, its operators with the states loaded for them. -/
def Graph.restored (graph : Graph K V T S E) (loaded : Nat → S) :
    Graph K V T S E :=
  { graph with
    kind := fun operator => (graph.kind operator).restored (loaded operator)
    forwards := by
      intro operator inGraph source member
      rw [Kind.forwards_restored]
      exact graph.forwards operator inGraph source member }

def Worker.load (worker : Worker K V T S E) (operatorId : OperatorId) :
    Option Bytes :=
  ((worker.persisted.filter fun write =>
    decide (write.1 = operatorId)).map Prod.snd).getLast?

/-- What the operator writes is all it knows: if it can be built from that, it
is in the state it was in. -/
def Logic.Durable (logic : Logic K V T S E) (initial : S)
    (build : Option Bytes → Except StatePanic S) : Prop :=
  ∀ messages state,
    build (logic.persist.map fun write =>
        write (logic.transducer.after initial messages)) = .ok state →
      state = logic.transducer.after initial messages

def Graph.Durable (graph : Graph K V T S E) (reacts : Nat → Bool)
    (build : Nat → Option Bytes → Except StatePanic S) : Prop :=
  ∀ operator < graph.size, reacts operator = true →
    ∀ logic initial, graph.kind operator = .logic logic initial →
      logic.Durable initial (build operator)

/-- An operator whose state never changes needs not write it. -/
theorem Logic.durable_of_constant {logic : Logic K V T S E} {initial : S}
    {build : Option Bytes → Except StatePanic S}
    (constant : ∀ message state, (logic.onMessage message state).1 = state)
    (silent : logic.persist = none) (fresh : build none = .ok initial) :
    logic.Durable initial build := by
  intro messages state isBuilt
  have same : logic.transducer.after initial messages = initial := by
    clear isBuilt
    induction messages with
    | nil => rfl
    | cons message rest ih =>
        have kept : (logic.transducer.step initial message).1 = initial :=
          constant message initial
        rw [Transducer.after_cons, kept, ih]
  rw [silent, Option.map_none, fresh] at isBuilt
  rw [same, Except.ok.inj isBuilt]

/-- A stateful operator writes its keyed state, and remembers nothing else. -/
theorem Library.statefulOp_durable {L : Type} [DecidableEq K]
    {operator : StatefulOp K V T V S L} (codec : Codec (IndexMap K S))
    (forgets : operator.logic.Forgets) (initial : OperatorState K S L) :
    (Library.statefulOp (E := E) operator codec.serializeState).Durable initial
      (StatefulOp.build codec initial.memory) := by
  intro messages state isBuilt
  have memory : ∀ current : OperatorState K S L,
      ((Library.statefulOp (E := E) operator
        codec.serializeState).transducer.after current messages).memory =
          current.memory := by
    clear isBuilt
    induction messages with
    | nil => exact fun _ => rfl
    | cons message rest ih =>
        intro current
        rw [Transducer.after_cons, ih]
        exact StatefulOp.memory_receive forgets message
  simp only [Library.statefulOp, Option.map_some, StatefulOp.build,
    Codec.loadState_serializeState, Option.getD_some, Except.ok.injEq] at isBuilt
  rw [← isBuilt, ← memory initial]
  rfl

section

variable {graph : Graph K V T S E} {reacts : Nat → Bool} {loaded : Nat → S}

theorem Graph.Reacts.restored (reacting : graph.Reacts reacts) :
    (graph.restored loaded).Reacts reacts := by
  intro operator inGraph answers
  obtain ⟨logic, initial, source, kind, inert, upstream⟩ :=
    reacting operator inGraph answers
  exact ⟨logic, loaded operator, source, by simp [Graph.restored, kind,
    Kind.restored], inert, upstream⟩

/-- Where every operator which reacts has answered what came before, and starts
again from where that has led, the whole history is that before and that of the
operators built again. -/
theorem Graph.meaning_restored (reacting : graph.Reacts reacts)
    {before later : Option Nat → List (Message K V T)}
    (answered : ∀ operator < graph.size, reacts operator = true →
      ∀ logic initial source, graph.kind operator = .logic logic initial →
        graph.upstream operator = [source] →
          before (some operator) = logic.transducer.outputs initial
              ((before source).filter (graph.carried operator 0)) ∧
            loaded operator = logic.transducer.after initial
              ((before source).filter (graph.carried operator 0)))
    {operator : Nat} (inGraph : operator < graph.size) :
    graph.meaning reacts (fun source => before source ++ later source)
        graph.size (some operator) =
      before (some operator) ++ (graph.restored loaded).meaning reacts later
        graph.size (some operator) := by
  refine reacting.induction (motive := fun source =>
    graph.meaning reacts (fun source => before source ++ later source)
        graph.size source =
      before source ++ (graph.restored loaded).meaning reacts later
        graph.size source) ?_ ?_ ?_ inGraph
  · rw [meaning_given (by simp), meaning_given (by simp)]
  · intro operator inGraph silent
    rw [meaning_unreacting silent, meaning_unreacting silent]
  · intro operator inGraph answers logic initial source kind inert upstream ih
    obtain ⟨sent, state⟩ :=
      answered operator inGraph answers logic initial source kind upstream
    have within : operator < (graph.restored loaded).size := inGraph
    have again : (graph.restored loaded).kind operator =
        .logic logic (loaded operator) := by
      simp [Graph.restored, kind, Kind.restored]
    have there : (graph.restored loaded).meaning reacts later graph.size
        (some operator) = logic.transducer.outputs (loaded operator)
          (((graph.restored loaded).meaning reacts later graph.size
            source).filter (graph.carried operator 0)) :=
      meaning_reacts within answers again upstream
    rw [meaning_reacts inGraph answers kind upstream, ih, List.filter_append,
      Transducer.outputs_append, ← sent, ← state, there]

end

/-! ### From a snapshot -/

variable [DecidableEq K] [MaybeTime T] [LT T] [DecidableLT T]

/-- A worker which is built from a snapshot goes on where the snapshot is: there
is a state which its predecessor could have been in, with nothing between its
operators, which has sent a part of what that had sent, and in which the new
operators start. Their histories behind those of that state are what the program
makes of all that its sources have sent in both lives, nothing lost and nothing
twice. -/
theorem snapshot_resumed {graph : Graph K V T S E} {reacts : Nat → Bool}
    {build : Nat → Option Bytes → Except StatePanic S} {loaded : Nat → S}
    {context again : BuildContext} {start restart : Worker K V T S E}
    {settled account resumed : Account K V T S E}
    (isLocal : graph.Local) (reacting : graph.Reacts reacts)
    (durable : graph.Durable reacts build)
    (built : graph.execute context = .ok start)
    (life : Reaches (Account.act graph context.workerId)
      (fun account event => account.allowed graph context.workerId event)
      { toWorker := start } settled)
    (begins : settled.allowed graph context.workerId (.command .snapshot))
    (run : Reaches (Account.act graph context.workerId)
      (fun _ event => Worker.works graph event)
      (settled.begin graph .snapshot) account)
    (exits : account.strongCount graph ≤ 1)
    (loads : ∀ operator < graph.size, build operator
      (account.load (graph.operatorId operator)) = .ok (loaded operator))
    (rebuilt : (graph.restored loaded).execute again = .ok restart)
    (rerun : Reaches (Account.act (graph.restored loaded) again.workerId)
      (fun account event =>
        account.allowed (graph.restored loaded) again.workerId event)
      { toWorker := restart } resumed) :
    ∃ recorded : Account K V T S E,
      Reaches (Account.act graph context.workerId)
        (fun _ event => Worker.works graph event) settled recorded ∧
      (∀ operator < graph.size,
        recorded.sent (some operator) <+: account.sent (some operator) ∧
        (∀ channel,
          (recorded.operators operator).input.queue channel = []) ∧
        ∃ logic initial state, graph.kind operator = .logic logic initial ∧
          (recorded.operators operator).body = .logic logic state ∧
          build operator (logic.persist.map fun write => write state) =
            .ok (loaded operator)) ∧
      (∀ operator < graph.size,
        recorded.sent (some operator) ++ resumed.sent (some operator) <+:
          graph.meaning reacts
            (fun source => recorded.sent source ++ resumed.sent source)
            graph.size (some operator)) ∧
      (resumed.Drained reacts (graph.restored loaded) →
        ∀ operator < graph.size,
          recorded.sent (some operator) ++ resumed.sent (some operator) =
            graph.meaning reacts
              (fun source => recorded.sent source ++ resumed.sent source)
              graph.size (some operator) ∧
          (reacts operator = true → ∀ logic initial source,
            graph.kind operator = .logic logic initial →
              graph.upstream operator = [source] →
                (resumed.operators operator).body = .logic logic
                  (logic.transducer.after initial
                    ((recorded.sent source ++ resumed.sent source).filter
                      (graph.carried operator 0))))) := by
  have ready := Worker.Ready.reaches built (Account.worker_reaches life)
  have begun : (settled.begin graph .snapshot).toWorker.Ready graph
      context.workerId := ready.act begins rfl
  have working : ∀ {state : Account K V T S E},
      Reaches (Account.act graph context.workerId)
        (fun _ event => Worker.works graph event)
        (settled.begin graph .snapshot) state →
      state.toWorker.Ready graph context.workerId ∧
        state.procedure = some .snapshot := by
    intro state before
    have reached : Reaches (Worker.act graph context.workerId)
        (fun _ event => Worker.works graph event)
        (settled.begin graph .snapshot).toWorker state.toWorker :=
      Account.worker_reaches before
    exact begun.working reached
  obtain ⟨recorded, reaches, shadowed⟩ := run.simulated
    (Account.Shadowed graph)
    (Account.shadowed_begin isLocal ready.kept begins.1)
    fun state event next shadow prior related works stepped =>
      related.act isLocal (working prior).1.sound (working prior).1.kept works
        stepped
  have written : ∀ operator < graph.size,
      (∀ channel, (recorded.operators operator).input.queue channel = []) ∧
      ∃ logic initial state, graph.kind operator = .logic logic initial ∧
        (recorded.operators operator).body = .logic logic state ∧
        build operator (logic.persist.map fun write => write state) =
          .ok (loaded operator) := by
    intro operator inGraph
    have ended := working run
    obtain ⟨before, turn, after, passed⟩ := Worker.exists_passed ended.1.sound
      ended.1.kept ended.2 exits inGraph
    obtain ⟨empty, logic, initial, state, isLogic, body, stored⟩ :=
      shadowed.worker.written inGraph passed
    have isLoaded := loads operator inGraph
    have last : ∀ stored : Option Bytes, stored.toList.getLast? = stored := by
      intro stored
      cases stored <;> rfl
    rw [Worker.load, stored, last] at isLoaded
    exact ⟨empty, logic, initial, state, isLogic, body, isLoaded⟩
  have played := Account.Played.reaches built
    (life.trans (reaches.mono fun _ _ => Worker.allowed_of_works))
  have answered : ∀ operator < graph.size, reacts operator = true →
      ∀ logic initial source, graph.kind operator = .logic logic initial →
        graph.upstream operator = [source] →
          recorded.sent (some operator) = logic.transducer.outputs initial
              ((recorded.sent source).filter (graph.carried operator 0)) ∧
            loaded operator = logic.transducer.after initial
              ((recorded.sent source).filter (graph.carried operator 0)) := by
    intro operator inGraph answers logic initial source kind upstream
    obtain ⟨empty, same, _, state, isSame, body, isLoaded⟩ :=
      written operator inGraph
    obtain ⟨rfl, rfl⟩ := Kind.logic.inj (isSame.symm.trans kind)
    obtain ⟨_, _, _, isReacting, inert, -⟩ := reacting operator inGraph answers
    obtain ⟨rfl, rfl⟩ := Kind.logic.inj (isReacting.symm.trans kind)
    have taken := played.fed operator inGraph source upstream
    rw [empty 0, List.append_nil] at taken
    obtain ⟨after, sent⟩ :=
      played.replays operator inGraph _ _ kind inert
    rw [taken] at after sent
    obtain ⟨-, rfl⟩ := Body.logic.inj (body.symm.trans after)
    exact ⟨sent, durable operator inGraph answers _ _ kind _ _ isLoaded⟩
  have replayed := Account.Played.reaches rebuilt rerun
  refine ⟨recorded, reaches, fun operator inGraph => ⟨shadowed.part operator
    inGraph, written operator inGraph⟩, ?_, ?_⟩
  · intro operator inGraph
    rw [Graph.meaning_restored reacting answered inGraph,
      List.prefix_append_right_inj]
    exact replayed.sent_part reacting.restored inGraph
  · intro drained operator inGraph
    have whole := replayed.sent_drained reacting.restored drained inGraph
    rw [Graph.meaning_restored reacting answered inGraph]
    refine ⟨congrArg _ whole, ?_⟩
    intro answers logic initial source kind upstream
    obtain ⟨running, _, _, isReacting, inert, -⟩ := reacting operator inGraph answers
    obtain ⟨rfl, rfl⟩ := Kind.logic.inj (isReacting.symm.trans kind)
    have again : (graph.restored loaded).kind operator =
        .logic running (loaded operator) := by
      simp [Graph.restored, kind, Kind.restored]
    have taken := replayed.taken_drained drained inGraph answers upstream
    rw [(replayed.replays operator inGraph _ _ again inert).1, taken,
      (answered operator inGraph answers _ _ source kind upstream).2,
      ← Transducer.after_append, List.filter_append]
    rfl

/-! The sums of the even and of the odd bytes, by a worker which is stopped and
built again. -/

abbrev Tallies := OperatorState Bool UInt8 Unit

def counting : LogicWrapper Bool UInt8 Nat Tallies Unit where
  onSchedule _ current :=
    let number := (current.state.get? false).getD 0
    ({ current with state := current.state.insert false (number + 1) },
      [⟨false, number, number.toNat⟩], none)
  onData _ current := (current, [])
  onEpoch _ current := (current, [], none)
  onBarrier current := mapCodec.serializeState current.state
  onRescale _ current := current
  onSuspend current := current
  onCollect _ current := current
  onAcquire moved current := (current, moved)

def tallied : StatefulOp Bool UInt8 Nat UInt8 UInt8 Unit where
  operatorId := 12
  logic := mapperOp fun memory _ value tally =>
    (memory, tally + value, some (tally + value))
  default := 0
  encode tally := [tally]
  decode bytes := bytes.headD 0

def talliesKind : Nat → Kind Bool UInt8 Nat Tallies Unit
  | 0 => .logic counting.intoLogic ⟨.empty, ()⟩
  | 1 => .logic (Library.keyLocal fun message => message.value % 2 = 1)
      ⟨.empty, ()⟩
  | _ => .logic (Library.statefulOp tallied mapCodec.serializeState)
      ⟨.empty, ()⟩

theorem talliesKind_forwards (operator : Nat) (inGraph : operator + 1 < 3) :
    (talliesKind operator).forwards = true :=
  match operator, inGraph with
  | 0, _ | 1, _ => rfl
  | more + 2, inGraph => absurd inGraph (by omega)

def tallies : Graph Bool UInt8 Nat Tallies Unit :=
  .inRow 3 (fun operator => 10 + operator) talliesKind talliesKind_forwards

theorem tallies_local : tallies.Local := by
  intro operator inGraph
  match operator with
  | 0 => exact ⟨_, _, rfl, counting.intoLogic_still⟩
  | 1 => exact ⟨_, _, rfl, Library.keyLocal_still _⟩
  | more + 2 => exact ⟨_, _, rfl, Library.statefulOp_still _ _⟩

def answering (operator : Nat) : Bool := decide (operator ≠ 0)

theorem tallies_reacts : tallies.Reacts answering := by
  intro operator inGraph answers
  match operator with
  | 0 => simp [answering] at answers
  | 1 => exact ⟨_, _, _, rfl, fun _ _ => rfl, rfl⟩
  | more + 2 => exact ⟨_, _, _, rfl, fun _ _ => rfl, rfl⟩

def talliesBuild (_ : Nat) (persisted : Option Bytes) :
    Except StatePanic Tallies :=
  StatefulOp.build mapCodec () persisted

theorem tallied_forgets : tallied.logic.Forgets :=
  ⟨fun _ _ _ => rfl, fun _ _ _ => rfl, fun _ _ => rfl⟩

theorem tallies_durable : tallies.Durable answering talliesBuild := by
  intro operator inGraph answers logic initial kind
  match operator with
  | 0 => simp [answering] at answers
  | 1 =>
      obtain ⟨rfl, rfl⟩ := Kind.logic.inj kind
      refine Logic.durable_of_constant (fun message state => ?_) rfl rfl
      cases message <;> rfl
  | more + 2 =>
      obtain ⟨rfl, rfl⟩ := Kind.logic.inj kind
      exact Library.statefulOp_durable mapCodec tallied_forgets _

def talliesStart : Worker Bool UInt8 Nat Tallies Unit where
  operators := tallies.intoRunnable soleWorker
  procedure := none
  persisted := []
  logs operator := Log.start (tallies.intoRunnable soleWorker operator)

def talliesCall (operator : Nat) : Worker.Event Bool UInt8 Nat Tallies Unit :=
  .step operator ⟨(), 0⟩

@[irreducible] def talliesSettled : Account Bool UInt8 Nat Tallies Unit :=
  replay (Account.act tallies 0) { toWorker := talliesStart }
    [talliesCall 0, talliesCall 0, talliesCall 1]

/-- The source has sent five bytes when it is stopped, three of them before the
barrier. -/
def talliesTrace : List (Worker.Event Bool UInt8 Nat Tallies Unit) :=
  List.replicate 3 (talliesCall 0) ++
    List.replicate 5 (talliesCall 1) ++ List.replicate 5 (talliesCall 2)

@[irreducible] def talliesAccount : Account Bool UInt8 Nat Tallies Unit :=
  replay (Account.act tallies 0) (talliesSettled.begin tallies .snapshot)
    talliesTrace

def talliesLoaded (operator : Nat) : Tallies :=
  match talliesBuild operator
      (talliesAccount.load (tallies.operatorId operator)) with
  | .ok loaded => loaded
  | .error _ => ⟨.empty, ()⟩

def talliesAgain : Graph Bool UInt8 Nat Tallies Unit :=
  tallies.restored talliesLoaded

def talliesRestart : Worker Bool UInt8 Nat Tallies Unit where
  operators := talliesAgain.intoRunnable soleWorker
  procedure := none
  persisted := []
  logs operator := Log.start (talliesAgain.intoRunnable soleWorker operator)

@[irreducible] def talliesResumed : Account Bool UInt8 Nat Tallies Unit :=
  replay (Account.act talliesAgain 0) { toWorker := talliesRestart }
    ([talliesCall 0, talliesCall 0] ++ List.replicate 2 (talliesCall 1) ++
      List.replicate 2 (talliesCall 2))

/-- The source has gone on with 3, and the sums with 1 and 2. -/
theorem tallies_resumed :
    (talliesResumed.sent (some 2)).filterMap Message.data? =
      [⟨true, 4, 3⟩, ⟨false, 6, 4⟩] ∧
    ∃ recorded : Account Bool UInt8 Nat Tallies Unit,
      recorded.sent (some 2) <+: talliesAccount.sent (some 2) ∧
      recorded.sent (some 2) ++ talliesResumed.sent (some 2) =
        tallies.meaning answering
          (fun source => recorded.sent source ++ talliesResumed.sent source)
          tallies.size (some 2) := by
  have life : Reaches (Account.act tallies soleWorker.workerId)
      (fun account event => account.allowed tallies soleWorker.workerId event)
      { toWorker := talliesStart } talliesSettled := by
    unfold talliesSettled
    exact Follows.reaches _ .refl (by decide +kernel)
  have run : Reaches (Account.act tallies soleWorker.workerId)
      (fun _ event => Worker.works tallies event)
      (talliesSettled.begin tallies .snapshot) talliesAccount := by
    unfold talliesAccount
    exact Follows.reaches talliesTrace .refl (by decide +kernel)
  have rerun : Reaches (Account.act talliesAgain soleWorker.workerId)
      (fun account event =>
        account.allowed talliesAgain soleWorker.workerId event)
      { toWorker := talliesRestart } talliesResumed := by
    unfold talliesResumed
    exact Follows.reaches _ .refl (by decide +kernel)
  have loads : ∀ operator < tallies.size, talliesBuild operator
      (talliesAccount.load (tallies.operatorId operator)) =
        .ok (talliesLoaded operator) := by
    have isOk : ∀ operator < tallies.size, (talliesBuild operator
        (talliesAccount.load (tallies.operatorId operator))).isOk = true := by
      decide +kernel
    intro operator inGraph
    have found := isOk operator inGraph
    unfold talliesLoaded
    cases isBuilt : talliesBuild operator
        (talliesAccount.load (tallies.operatorId operator)) with
    | ok loaded => rfl
    | error panic =>
        rw [isBuilt] at found
        cases found
  have built : tallies.execute soleWorker = .ok talliesStart := rfl
  have rebuilt : talliesAgain.execute soleWorker = .ok talliesRestart := rfl
  obtain ⟨recorded, -, parts, -, whole⟩ := snapshot_resumed tallies_local
    tallies_reacts tallies_durable built life (by decide +kernel) run
    (by decide +kernel) loads rebuilt rerun
  exact ⟨by decide +kernel, recorded, (parts 2 (by decide)).1,
    (whole (by decide +kernel) 2 (by decide)).1⟩

end Malstrom.Stream
