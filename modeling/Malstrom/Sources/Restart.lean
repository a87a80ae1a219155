import Malstrom.Keyed.Delivery
import Malstrom.Sources.Cluster
import Malstrom.Sources.Partition

namespace Malstrom.Sources

open Data Operators Snapshot

variable {Part V T S P : Type}

/-! The operators a stateful source is made of: worker 0 lists the parts, a
distributor spreads them, and the partition operators build them. -/

structure SourceStream (Part V T S P : Type) where
  /-- The parts which the lister has still to send. -/
  inner : WorkerId → List Part
  /-- Everything the lister has taken from its input so far. -/
  told : WorkerId → List (Message Unit Unit NoTime)
  /-- Channel from the lister to the distributor. -/
  listed : WorkerId → List (Message Part Unit NoTime)
  /-- The distributors, each with the channel to its partition operator. -/
  distributors : Keyed.System Part Unit NoTime Unit Unit Unit
  sites : WorkerId → Site Part V T S P
  /-- The finished partitions which workers tell each other. -/
  finished : Links WorkerId Part

inductive StreamPanic where
  /-- Entered unreachable code. -/
  | unreachable
  | distributor (panic : Keyed.Panic)
  | partition (panic : SourcePanic)

inductive SourceStream.Event (Part : Type) where
  /-- The lister is scheduled, with a message in its input or without one. -/
  | list (worker : WorkerId) (input : Option (Message Unit Unit NoTime))
  | receiveRemote (worker remote : WorkerId)
  | receiveLocal (worker : WorkerId)
  | tryEmitBarrier (worker : WorkerId)
  | tryEmitShutdown (worker : WorkerId)
  | lifecycle (worker : WorkerId)
  /-- The partition operator is scheduled. -/
  | partition (worker : WorkerId)

def SourceStream.Event.worker : Event Part → WorkerId
  | .list worker _ | .receiveRemote worker _ | .receiveLocal worker
  | .tryEmitBarrier worker | .tryEmitShutdown worker | .lifecycle worker
  | .partition worker => worker

def forward : Message Unit Unit NoTime →
    Except StreamPanic (List (Message Part Unit NoTime))
  | .data _ | .epoch _ => .ok []
  | .absBarrier => .ok [.absBarrier]
  | .rescale rescale => .ok [.rescale rescale]
  | .suspendMarker => .ok [.suspendMarker]
  | .interrogate | .collect _ | .acquire _ => .error .unreachable

def partMessage (part : Part) : DataMessage Part Unit NoTime :=
  ⟨part, (), .noTime⟩

/-- All parts which are left are sent, then one message is taken. -/
def partLister (inner : List Part) (input : Option (Message Unit Unit NoTime)) :
    Except StreamPanic (List (Message Part Unit NoTime)) :=
  let parts := inner.map fun part => .data (partMessage part)
  match input with
  | none => .ok parts
  | some message =>
      match forward message with
      | .ok output => .ok (parts ++ output)
      | .error panic => .error panic

/-- What the distributors have in common.  The operator behind them is the
partition operator; the one given here is never scheduled. -/
def distribute (hash : Part → WorkerId → Nat) :
    Keyed.Job Part Unit NoTime Unit Unit Unit where
  partitioner := Keyed.rendezvousSelect hash
  operator :=
    { operatorId := 0
      logic :=
        { onData := fun _ _ _ => ((), none, [])
          onEpoch := fun _ _ state => ((), state, [])
          onSchedule := fun _ state => ((), state, []) }
      default := ()
      encode := fun _ => []
      decode := fun _ => () }
  memory := ()

namespace StatefulSource

variable [DecidableEq Part] (source : StatefulSource Part V T S P)
  (hash : Part → WorkerId → Nat) (codec : Codec (IndexMap Part S))

/-- The job is started, with what was persisted for each partition operator,
if anything was. -/
def startStream (workers : IndexSet WorkerId)
    (restored : WorkerId → Option (IndexMap Part S)) :
    SourceStream Part V T S P :=
  { inner := fun worker => if worker = 0 then source.builder.listParts else []
    told := fun _ => []
    listed := fun _ => []
    distributors := Keyed.System.initial (distribute hash) workers
    sites := fun worker => source.site worker workers (restored worker)
    finished := fun _ _ => [] }

omit source in
def callDistributor (stream : SourceStream Part V T S P)
    (event : Keyed.Event Part Unit NoTime) :
    Except StreamPanic (SourceStream Part V T S P) :=
  match stream.distributors.step (distribute hash) event with
  | .ok distributors => .ok { stream with distributors := distributors }
  | .error panic => .error (.distributor panic)

def callPartition (stream : SourceStream Part V T S P) (worker : WorkerId) :
    Except StreamPanic (SourceStream Part V T S P) :=
  let current := stream.distributors.workers worker
  let clients := (stream.sites worker).op.commClients
  match source.visit codec (stream.sites worker)
    (fun client => stream.finished client worker) current.queue.head? worker with
  | .error panic => .error (.partition panic)
  | .ok (site, effects) =>
      .ok { stream with
        distributors := stream.distributors.setWorker worker { current with
          distributor := current.distributor.takeReport effects.report
          queue := current.queue.tail }
        sites := Function.update stream.sites worker site
        finished := (receiveAll stream.finished clients worker).sendAll worker
          (effects.finished.flatMap fun part =>
            clients.items.map fun client => (client, part)) }

def stepStream (stream : SourceStream Part V T S P) :
    SourceStream.Event Part → Except StreamPanic (SourceStream Part V T S P)
  | .list worker input =>
      match partLister (stream.inner worker) input with
      | .error panic => .error panic
      | .ok output =>
          .ok { stream with
            inner := Function.update stream.inner worker []
            told := Function.update stream.told worker
              (stream.told worker ++ input.toList)
            listed := Function.update stream.listed worker
              (stream.listed worker ++ output) }
  | .receiveRemote worker remote =>
      callDistributor hash stream (.receiveRemote worker remote)
  | .receiveLocal worker =>
      if (stream.distributors.workers worker).distributor.localBarrier then
        .ok stream
      else
        match stream.listed worker with
        | [] => .ok stream
        | message :: rest =>
            callDistributor hash
              { stream with listed := Function.update stream.listed worker rest }
              (.receiveLocal worker message)
  | .tryEmitBarrier worker =>
      callDistributor hash stream (.tryEmitBarrier worker)
  | .tryEmitShutdown worker =>
      callDistributor hash stream (.tryEmitShutdown worker)
  | .lifecycle worker => callDistributor hash stream (.lifecycle worker)
  | .partition worker => source.callPartition codec stream worker

end StatefulSource

def SourceStream.Event.input : Event Part → Option (Message Unit Unit NoTime)
  | .list _ input => input
  | .receiveRemote .. | .receiveLocal _ | .tryEmitBarrier _
  | .tryEmitShutdown _ | .lifecycle _ | .partition _ => none

/-- The workers stay the same, and nothing is sent behind a `SuspendMarker`. -/
def SourceStream.Fixed (workers : IndexSet WorkerId)
    (stream : SourceStream Part V T S P) (event : Event Part) : Prop :=
  event.worker ∈ workers ∧ ∀ message ∈ event.input, message.rescale? = none ∧
    (stream.told event.worker).any Message.isSuspend = false

instance (workers : IndexSet WorkerId) (stream : SourceStream Part V T S P)
    (event : SourceStream.Event Part) : Decidable (stream.Fixed workers event) :=
  inferInstanceAs (Decidable (_ ∧ _))

def Placed (hash : Part → WorkerId → Nat) (workers : IndexSet WorkerId)
    (restored : WorkerId → Option (IndexMap Part S)) : Prop :=
  ∀ worker ∈ workers, ∀ states ∈ restored worker, ∀ part ∈ states,
    Keyed.rendezvousSelect hash part workers = worker

/-! ### The way of a part to its worker -/

/-- What a lister has sent: its parts, and behind them what it passed on. -/
structure Listing (parts inner : List Part)
    (told : List (Message Unit Unit NoTime))
    (line : List (Message Part Unit NoTime)) : Prop where
  parts : inner = parts ∧ line = [] ∨ inner = [] ∧ ∃ passed,
    line = parts.map (fun part => .data (partMessage part)) ++ passed ∧
    ∀ message ∈ passed, message.data? = none ∧ message.rescale? = none
  closed : line.any Message.isSuspend = told.any Message.isSuspend
  last : line.Pairwise fun earlier _ => earlier.isSuspend = false

theorem forward_spec {message : Message Unit Unit NoTime}
    {passed : List (Message Part Unit NoTime)}
    (forwarded : forward message = .ok passed)
    (unscaled : message.rescale? = none) :
    (∀ sent ∈ passed, sent.data? = none ∧ sent.rescale? = none) ∧
      passed.any Message.isSuspend = message.isSuspend ∧
      passed.length ≤ 1 := by
  cases message <;> simp [forward, Message.rescale?] at forwarded unscaled <;>
    subst forwarded <;> simp [Message.data?, Message.rescale?, Message.isSuspend]

/-- The lister passes on at most one message behind the parts. -/
theorem partLister_spec {inner : List Part}
    {input : Option (Message Unit Unit NoTime)}
    {output : List (Message Part Unit NoTime)}
    (listed : partLister inner input = .ok output)
    (unscaled : ∀ message ∈ input, message.rescale? = none) :
    ∃ passed, output =
        inner.map (fun part => .data (partMessage part)) ++ passed ∧
      (∀ message ∈ passed, message.data? = none ∧ message.rescale? = none) ∧
      passed.any Message.isSuspend = input.toList.any Message.isSuspend ∧
      passed.length ≤ input.toList.length := by
  cases input with
  | none =>
      refine ⟨[], ?_, by simp, rfl, Nat.le_refl _⟩
      rw [List.append_nil]
      exact (Except.ok.inj listed).symm
  | some message =>
      simp only [partLister] at listed
      split at listed
      next passed forwarded =>
        obtain ⟨silent, suspend, single⟩ :=
          forward_spec forwarded (unscaled message rfl)
        refine ⟨passed, (Except.ok.inj listed).symm, silent, ?_, single⟩
        simpa using suspend
      next => cases listed

theorem parts_open (parts : List Part) :
    ∀ message ∈ parts.map fun part =>
      (.data (partMessage part) : Message Part Unit NoTime),
      message.isSuspend = false := by
  intro message member
  obtain ⟨part, -, rfl⟩ := List.mem_map.mp member
  rfl

theorem last_of_open {first passed : List (Message Part Unit NoTime)}
    (isOpen : ∀ message ∈ first, message.isSuspend = false)
    (single : passed.length ≤ 1) :
    (first ++ passed).Pairwise fun earlier _ => earlier.isSuspend = false := by
  rw [List.pairwise_append]
  refine ⟨List.pairwise_of_forall_mem_list fun earlier member _ _ =>
    isOpen earlier member, ?_, fun earlier member _ _ => isOpen earlier member⟩
  match passed, single with
  | [], _ => exact .nil
  | [_], _ => exact List.pairwise_singleton _ _

theorem Listing.start (parts : List Part) : Listing parts parts [] [] where
  parts := .inl ⟨rfl, rfl⟩
  closed := rfl
  last := .nil

theorem Listing.list {parts inner : List Part}
    {told : List (Message Unit Unit NoTime)}
    {line output : List (Message Part Unit NoTime)}
    {input : Option (Message Unit Unit NoTime)}
    (listing : Listing parts inner told line)
    (steady : ∀ message ∈ input, message.rescale? = none ∧
      told.any Message.isSuspend = false)
    (listed : partLister inner input = .ok output) :
    Listing parts [] (told ++ input.toList) (line ++ output) := by
  obtain ⟨passed, rfl, silent, suspend, single⟩ :=
    partLister_spec listed fun message found => (steady message found).1
  have isOpen (list : List Part) :
      (list.map fun part => (.data (partMessage part) :
        Message Part Unit NoTime)).any Message.isSuspend = false :=
    List.any_eq_false.mpr fun message member => by
      simp [parts_open list message member]
  refine ⟨.inr ⟨rfl, ?_⟩, ?_, ?_⟩
  · rcases listing.parts with ⟨rfl, rfl⟩ | ⟨rfl, earlier, rfl, quiet⟩
    · exact ⟨passed, rfl, silent⟩
    · refine ⟨earlier ++ passed, by simp, fun message member => ?_⟩
      exact (List.mem_append.mp member).elim (quiet message) (silent message)
  · rw [List.any_append, List.any_append, listing.closed, isOpen,
      Bool.false_or, suspend, List.any_append]
  · rcases listing.parts with ⟨rfl, rfl⟩ | ⟨rfl, -⟩
    · rw [List.nil_append]
      refine last_of_open (parts_open inner) (single.trans ?_)
      cases input <;> simp
    · cases input with
      | none =>
          obtain rfl := List.eq_nil_of_length_eq_zero (Nat.le_zero.mp single)
          simpa using listing.last
      | some message =>
          have isOpen := (steady message rfl).2
          rw [← listing.closed, List.any_eq_false] at isOpen
          exact last_of_open (fun earlier member => by
            simpa using isOpen earlier member) single

/-- Ahead of the first barrier or `SuspendMarker` are all parts. -/
theorem Listing.taken {parts inner : List Part}
    {told : List (Message Unit Unit NoTime)}
    {taken rest : List (Message Part Unit NoTime)}
    (listing : Listing parts inner told (taken ++ rest))
    (started : 0 < taken.countP Message.isBarrier ∨
      taken.any Message.isSuspend = true) {part : Part} (listed : part ∈ parts) :
    partMessage part ∈
      beforeBarrier Message.isBarrier Message.data? 1 taken := by
  obtain ⟨marker, member, isMarker⟩ : ∃ message ∈ taken,
      message.data? = none := by
    rcases started with barrier | suspend
    · obtain ⟨message, member, isBarrier⟩ := List.countP_pos_iff.mp barrier
      exact ⟨message, member, barrier_empty message isBarrier⟩
    · obtain ⟨message, member, isSuspend⟩ := List.any_eq_true.mp suspend
      refine ⟨message, member, ?_⟩
      cases message <;> first | rfl | cases isSuspend
  rcases listing.parts with ⟨-, empty⟩ | ⟨-, passed, line, -⟩
  · rw [(List.append_eq_nil_iff.mp empty).1] at member
    cases member
  · -- the marker stands behind the parts
    obtain ⟨behind, rfl⟩ : ∃ behind, taken =
        parts.map (fun part => .data (partMessage part)) ++ behind := by
      rcases List.append_eq_append_iff.mp line with ⟨more, isMore, -⟩ |
        ⟨behind, isBehind, -⟩
      · have early : marker ∈ parts.map fun part =>
            (.data (partMessage part) : Message Part Unit NoTime) := by
          rw [isMore]
          exact List.mem_append_left _ member
        obtain ⟨part, -, rfl⟩ := List.mem_map.mp early
        cases isMarker
      · exact ⟨behind, isBehind⟩
    rw [beforeBarrier_append]
    apply List.mem_append_left
    rw [beforeBarrier_of_few barrier_empty]
    · simpa [List.mem_filterMap, Message.data?] using ⟨part, listed, rfl⟩
    · rw [List.countP_map]
      exact Nat.lt_of_le_of_lt (Nat.le_of_eq (List.countP_eq_zero.mpr
        fun part _ => by simp [Message.isBarrier])) Nat.zero_lt_one

/-! ### What holds throughout a run -/

def StatefulSource.partsOf (source : StatefulSource Part V T S P)
    (worker : WorkerId) : List Part :=
  if worker = 0 then source.builder.listParts else []

variable [DecidableEq Part]

structure SourceStream.Sound (source : StatefulSource Part V T S P)
    (hash : Part → WorkerId → Nat) (codec : Codec (IndexMap Part S))
    (workers : IndexSet WorkerId)
    (restored : WorkerId → Option (IndexMap Part S))
    (stream : SourceStream Part V T S P) : Prop where
  aligned : Keyed.Aligned (Keyed.rendezvousSelect hash) workers 0
    stream.distributors
  delivers : Keyed.Delivers (Keyed.rendezvousSelect hash) workers
    stream.distributors
  listing : ∀ worker ∈ workers, Listing (source.partsOf worker)
    (stream.inner worker) (stream.told worker)
    ((stream.distributors.workers worker).taken ++ stream.listed worker)
  fed : ∀ worker ∈ workers, (stream.distributors.workers worker).handed =
    (stream.sites worker).processed ++
      (stream.distributors.workers worker).queue
  kept : ∀ worker ∈ workers, Kept source.builder codec (restored worker)
    (stream.sites worker)

section

variable {source : StatefulSource Part V T S P} {hash : Part → WorkerId → Nat}
  {codec : Codec (IndexMap Part S)} {workers : IndexSet WorkerId}
  {restored : WorkerId → Option (IndexMap Part S)}
  {stream next : SourceStream Part V T S P}

theorem SourceStream.Sound.start
    (restored : WorkerId → Option (IndexMap Part S)) :
    (source.startStream hash workers restored).Sound source hash codec workers
      restored where
  aligned := (Keyed.Idle.initial (distribute hash) workers).aligned
  delivers := (Keyed.Idle.initial (distribute hash) workers).delivers
  listing _ _ := Listing.start _
  fed _ _ := rfl
  kept worker _ := Kept.start codec worker workers (restored worker)

theorem SourceStream.Sound.callDistributor
    {event : Keyed.Event Part Unit NoTime}
    (sound : stream.Sound source hash codec workers restored)
    (steady : Keyed.Steady workers stream.distributors event)
    (isCall : event.isCall = true)
    (listed : WorkerId → List (Message Part Unit NoTime))
    (takes : ∀ worker, stream.listed worker =
      (if worker = event.worker then stream.distributors.received event
        else []) ++ listed worker)
    (called : StatefulSource.callDistributor hash
      { stream with listed := listed } event = .ok next) :
    next.Sound source hash codec workers restored := by
  simp only [StatefulSource.callDistributor] at called
  split at called
  next distributors stepped =>
    obtain rfl := Except.ok.inj called
    refine ⟨sound.aligned.step steady stepped,
      sound.delivers.step sound.aligned steady stepped, fun worker member => ?_,
      fun worker member => ?_, sound.kept⟩
    · have listing := sound.listing worker member
      rw [takes] at listing
      rw [Keyed.System.step_taken stepped, List.append_assoc]
      exact listing
    · obtain ⟨output, handed, queue⟩ := Keyed.System.fed stepped isCall worker
      rw [handed, queue, sound.fed worker member, List.append_assoc]
  next => cases called

omit [DecidableEq Part] in
/-- The next message in front of a distributor is no rescale, and no
`SuspendMarker` is ahead of it. -/
theorem Listing.ahead {parts inner : List Part}
    {told : List (Message Unit Unit NoTime)}
    {taken rest : List (Message Part Unit NoTime)}
    {message : Message Part Unit NoTime}
    (listing : Listing parts inner told (taken ++ message :: rest)) :
    message.rescale? = none ∧ taken.any Message.isSuspend = false := by
  constructor
  · rcases listing.parts with ⟨-, empty⟩ | ⟨-, passed, line, silent⟩
    · simp at empty
    · have member : message ∈ parts.map (fun part =>
          (.data (partMessage part) : Message Part Unit NoTime)) ++ passed := by
        rw [← line]
        simp
      rcases List.mem_append.mp member with part | behind
      · obtain ⟨part, -, rfl⟩ := List.mem_map.mp part
        rfl
      · exact (silent message behind).2
  · rw [List.any_eq_false]
    intro earlier member
    have isOpen := (List.pairwise_append.mp listing.last).2.2 earlier member
      message (.head _)
    simp [isOpen]

theorem SourceStream.Sound.receiveLocal {worker : WorkerId}
    (sound : stream.Sound source hash codec workers restored)
    (member : worker ∈ workers)
    (stepped : source.stepStream hash codec stream (.receiveLocal worker) =
      .ok next) : next.Sound source hash codec workers restored := by
  simp only [StatefulSource.stepStream] at stepped
  split at stepped
  next => exact Except.ok.inj stepped ▸ sound
  next free =>
    split at stepped
    next => exact Except.ok.inj stepped ▸ sound
    next message rest waiting =>
      have received : stream.distributors.received
          (.receiveLocal worker message) = [message] := by
        simp [Keyed.System.received, free]
      have listing := sound.listing worker member
      rw [waiting] at listing
      have steady : Keyed.Steady workers stream.distributors
          (.receiveLocal worker message) := by
        refine ⟨member, ?_⟩
        rw [received]
        intro found same
        obtain rfl := List.mem_singleton.mp same
        exact listing.ahead
      refine sound.callDistributor steady rfl (Function.update stream.listed
        worker rest) (fun other => ?_) stepped
      rw [received]
      by_cases same : other = worker
      · subst same
        simpa [Keyed.Event.worker] using waiting
      · simp [same, Keyed.Event.worker]

theorem SourceStream.Sound.list {worker : WorkerId}
    {input : Option (Message Unit Unit NoTime)}
    (sound : stream.Sound source hash codec workers restored)
    (fixed : stream.Fixed workers (.list worker input))
    (stepped : source.stepStream hash codec stream (.list worker input) =
      .ok next) : next.Sound source hash codec workers restored := by
  simp only [StatefulSource.stepStream] at stepped
  split at stepped
  next => cases stepped
  next output isListed =>
    obtain rfl := Except.ok.inj stepped
    refine ⟨sound.aligned, sound.delivers, fun other member => ?_, sound.fed,
      sound.kept⟩
    have listing := sound.listing other member
    by_cases same : other = worker
    · subst same
      have more : Listing _ _ (stream.told other ++ input.toList) _ :=
        listing.list fixed.2 isListed
      simpa using more
    · simpa [same] using listing

/-- While no rescale is under way the distributor takes no report. -/
theorem takeReport_running {K V T S : Type} [DecidableEq K]
    {distributor : Keyed.Distributor K V T} {router : Keyed.NormalRouter}
    (running : distributor.router = .normal router) (report : Report K S) :
    distributor.takeReport report = distributor := by
  cases report <;> simp [Keyed.Distributor.takeReport, running]

theorem SourceStream.Sound.partition {worker : WorkerId}
    (sound : stream.Sound source hash codec workers restored)
    (member : worker ∈ workers)
    (called : source.callPartition codec stream worker = .ok next) :
    next.Sound source hash codec workers restored := by
  have running := (sound.aligned.running worker member).1
  have fed := sound.fed worker member
  simp only [StatefulSource.callPartition] at called
  split at called
  next => cases called
  next site effects visited =>
    rw [takeReport_running running] at called
    obtain rfl := Except.ok.inj called
    have plain : ∀ message ∈ (stream.distributors.workers worker).queue.head?,
        Plain message := by
      intro message found
      have handed : message ∈ (stream.distributors.workers worker).handed := by
        rw [fed]
        exact List.mem_append_right _ (List.mem_of_head? found)
      rcases sound.delivers.handed worker member message handed with quiet |
        ⟨record, isData, -⟩
      · exact .inl quiet
      · exact .inr ⟨record, isData⟩
    obtain ⟨kept, processed⟩ := (sound.kept worker member).visit plain visited
    have alike : Keyed.Alike stream.distributors
        (stream.distributors.setWorker worker
          { stream.distributors.workers worker with
            queue := (stream.distributors.workers worker).queue.tail }) := by
      refine ⟨fun other => ?_, fun other => ?_, fun other => ?_, rfl⟩ <;>
        simp only [Keyed.System.setWorker, Function.update_apply] <;>
        split
      all_goals first
        | rfl
        | simp [*]
    refine ⟨alike.aligned sound.aligned, alike.delivers sound.delivers,
      fun other inside => ?_, fun other inside => ?_, fun other inside => ?_⟩
    · rw [alike.taken]
      exact sound.listing other inside
    · rw [alike.handed]
      simp only [Keyed.System.setWorker, Function.update_apply]
      split
      next same =>
        rw [same, fed, processed, List.append_assoc]
        cases (stream.distributors.workers worker).queue <;> rfl
      next => exact sound.fed other inside
    · simp only [Function.update_apply]
      split
      next same => exact same ▸ kept
      next => exact sound.kept other inside

theorem SourceStream.Sound.step {event : SourceStream.Event Part}
    (sound : stream.Sound source hash codec workers restored)
    (fixed : stream.Fixed workers event)
    (stepped : source.stepStream hash codec stream event = .ok next) :
    next.Sound source hash codec workers restored := by
  have call (event : Keyed.Event Part Unit NoTime)
      (member : event.worker ∈ workers) (isCall : event.isCall = true)
      (nothing : stream.distributors.received event = [])
      (called : StatefulSource.callDistributor hash stream event = .ok next) :
      next.Sound source hash codec workers restored :=
    sound.callDistributor ⟨member, by simp [nothing]⟩ isCall stream.listed
      (by simp [nothing]) called
  cases event with
  | list worker input => exact sound.list fixed stepped
  | receiveRemote worker remote => exact call (.receiveRemote worker remote) fixed.1 rfl rfl stepped
  | receiveLocal worker => exact sound.receiveLocal fixed.1 stepped
  | tryEmitBarrier worker => exact call (.tryEmitBarrier worker) fixed.1 rfl rfl stepped
  | tryEmitShutdown worker => exact call (.tryEmitShutdown worker) fixed.1 rfl rfl stepped
  | lifecycle worker => exact call (.lifecycle worker) fixed.1 rfl rfl stepped
  | partition worker => exact sound.partition fixed.1 stepped

theorem SourceStream.Sound.run
    (run : Reaches (source.stepStream hash codec) (SourceStream.Fixed workers)
      (source.startStream hash workers restored) stream) :
    stream.Sound source hash codec workers restored :=
  run.invariant (·.Sound source hash codec workers restored) (.start restored)
    fun _ _ _ _ sound fixed stepped => sound.step fixed stepped

/-! ### A restart -/

/-- A worker builds no part of another. -/
theorem SourceStream.Sound.owner
    (sound : stream.Sound source hash codec workers restored)
    (placed : Placed hash workers restored) {worker : WorkerId}
    (member : worker ∈ workers) {part : Part}
    (built : part ∈ (stream.sites worker).op.partitions) :
    Keyed.rendezvousSelect hash part workers = worker := by
  rcases ((sound.kept worker member).known part).mp built with
    ⟨states, found, inside⟩ | ⟨record, processed, rfl⟩
  · exact placed worker member states found part inside
  · obtain ⟨message, arrived, carries⟩ := List.mem_filterMap.mp processed
    have handed : message ∈ (stream.distributors.workers worker).handed := by
      rw [sound.fed worker member]
      exact List.mem_append_left _ arrived
    rcases sound.delivers.handed worker member message handed with quiet |
      ⟨found, rfl, owned⟩
    · cases message with
      | data => cases quiet
      | epoch | absBarrier | rescale | suspendMarker | interrogate | collect
      | acquire => cases carries
    · obtain rfl := Option.some.inj carries
      exact owned

/-- What another worker owns was never built here, and sent nothing. -/
theorem SourceStream.Sound.elsewhere
    (sound : stream.Sound source hash codec workers restored)
    (placed : Placed hash workers restored) {worker : WorkerId}
    (member : worker ∈ workers) {part : Part}
    (other : worker ≠ Keyed.rendezvousSelect hash part workers) :
    (stream.sites worker).builtOf part = [] ∧
      recordsOf part (stream.sites worker).records = [] := by
  have absent : part ∉ (stream.sites worker).op.partitions := fun built =>
    other (sound.owner placed member built).symm
  have traced := (sound.kept worker member).traced part
  rw [IndexMap.get?_eq_none.mpr absent] at traced
  generalize (stream.sites worker).builtOf part = built at traced ⊢
  generalize recordsOf part (stream.sites worker).records = records
    at traced ⊢
  cases traced with
  | absent => exact ⟨rfl, rfl⟩

/-- Every part has reached its owner before the owner persists its first
snapshot. -/
theorem SourceStream.Sound.reached
    (sound : stream.Sound source hash codec workers restored)
    (lists : 0 ∈ workers) {part : Part}
    (listed : part ∈ source.builder.listParts) {worker : WorkerId}
    (member : worker ∈ workers)
    (owned : Keyed.rendezvousSelect hash part workers = worker)
    (persisted : 0 < (stream.sites worker).persisted.length) :
    partMessage part ∈ beforeBarrier Message.isBarrier Message.data? 1
      (stream.sites worker).processed := by
  have received := (sound.kept worker member).received
  have fed := sound.fed worker member
  have emitted : 0 < (stream.distributors.workers worker).emitted := by
    rw [Keyed.Worker.emitted, fed, List.countP_append]
    omega
  have taken : partMessage part ∈
      (stream.distributors.workers 0).recordsTaken 1 := by
    have listing := sound.listing 0 lists
    exact listing.taken (sound.aligned.started_of_emitted member lists emitted)
      listed
  have handed := sound.aligned.delivered sound.delivers lists emitted taken
    owned
  rw [Keyed.Worker.recordsHanded, fed, beforeBarrier_of_passed] at handed
  · exact handed
  · omega

theorem SourceStream.Sound.persisted
    (sound : stream.Sound source hash codec workers restored)
    {worker : WorkerId} (member : worker ∈ workers) {number : Nat}
    (committed : number < (stream.sites worker).persisted.length) :
    ∃ states,
      (stream.sites worker).persisted[number]? =
        some (codec.serializeState states) ∧
      Saved source.builder number states (stream.sites worker) := by
  have found := List.getElem?_eq_getElem committed
  obtain ⟨states, written, saved⟩ :=
    (sound.kept worker member).saved number _ found
  exact ⟨states, written ▸ found, saved⟩

/-- A stateful source which is stopped behind a barrier and restarted emits for
each part what one uninterrupted partition would have emitted. -/
theorem StatefulSource.restarts (continues : source.builder.Continues)
    (hash : Part → WorkerId → Nat) (codec : Codec (IndexMap Part S))
    (lists : 0 ∈ workers) (placed : Placed hash workers restored)
    {stopped : SourceStream Part V T S P}
    (run : Reaches (source.stepStream hash codec) (SourceStream.Fixed workers)
      (source.startStream hash workers restored) stopped)
    {number : Nat} (committed : ∀ worker ∈ workers,
      number < (stopped.sites worker).persisted.length) :
    ∃ resumed : WorkerId → Option (IndexMap Part S),
      (∀ worker ∈ workers,
        codec.loadState (stopped.sites worker).persisted[number]? =
          .ok (resumed worker)) ∧
      Placed hash workers resumed ∧
      ∀ later, Reaches (source.stepStream hash codec)
          (SourceStream.Fixed workers)
          (source.startStream hash workers resumed) later →
        ∀ part ∈ source.builder.listParts,
          ∃ worker ∈ workers, ∃ first state calls,
            (resumed worker).bind (fun states => states.get? part) =
              some state ∧
            (later.sites worker).builtOf part = [(part, some state)] ∧
            (stopped.sites worker).builtOf part = [(part, first)] ∧
            recordsOf part
                ((stopped.sites worker).recordsBefore (number + 1)) ++
              recordsOf part (later.sites worker).records =
                source.builder.records
                  (source.builder.buildPart part first) calls ∧
            ∀ other ∈ workers, other ≠ worker →
              (later.sites other).builtOf part = [] ∧
              recordsOf part (later.sites other).records = [] ∧
              recordsOf part (stopped.sites other).records = [] := by
  have before := SourceStream.Sound.run run
  have persisted (worker : WorkerId) : ∃ resumed : Option (IndexMap Part S),
      worker ∈ workers → ∃ states, resumed = some states ∧
        (stopped.sites worker).persisted[number]? =
          some (codec.serializeState states) ∧
        Saved source.builder number states (stopped.sites worker) := by
    by_cases member : worker ∈ workers
    · obtain ⟨states, written, saved⟩ :=
        before.persisted member (committed worker member)
      exact ⟨some states, fun _ => ⟨states, rfl, written, saved⟩⟩
    · exact ⟨none, fun inside => absurd inside member⟩
  choose resumed isResumed using persisted
  have again : Placed hash workers resumed := by
    intro worker member found isFound part inside
    obtain ⟨states, isStates, -, saved⟩ := isResumed worker member
    obtain rfl := Option.some.inj (isFound.symm.trans isStates)
    exact before.owner placed member (saved.known part inside)
  refine ⟨resumed, fun worker member => ?_, again,
    fun later rerun part listed => ?_⟩
  · obtain ⟨states, isStates, written, -⟩ := isResumed worker member
    rw [written, isStates, codec.loadState_serializeState]
  have after := SourceStream.Sound.run rerun
  have member : Keyed.rendezvousSelect hash part workers ∈ workers :=
    Keyed.rendezvousSelect_mem hash part (List.ne_nil_of_mem lists)
  generalize owned : Keyed.rendezvousSelect hash part workers = worker
    at member
  obtain ⟨states, isStates, -, saved⟩ := isResumed worker member
  have reached := before.reached lists listed member owned
    (Nat.zero_lt_of_lt (committed worker member))
  obtain ⟨state, isState⟩ := IndexMap.exists_get?_of_mem
    (saved.complete _ (mem_beforeBarrier_mono (Nat.succ_le_succ (Nat.zero_le
      number)) reached))
  -- the partition which was stopped
  obtain ⟨partition, built, inside, traced, isSnapshot⟩ := saved.cut part
  obtain ⟨current, rfl, rfl⟩ :=
    Option.map_eq_some_iff.mp (isSnapshot.symm.trans isState)
  obtain ⟨first, calls, rfl, rfl, sent⟩ := traced.of_some
  obtain ⟨onlyFirst, -⟩ := ((before.kept worker member).traced part).of_mem
    (List.mem_filter.mpr ⟨inside _ (.head _), by simp⟩)
  -- the one which goes on
  have started := (after.kept worker member).started states isStates
    (part, _) (IndexMap.get?_eq_some.mp isState)
  obtain ⟨onlyState, more, -, resent⟩ :=
    ((after.kept worker member).traced part).of_mem
      (List.mem_filter.mpr ⟨started, by simp⟩)
  refine ⟨worker, member, first, _, calls ++ more, ?_, onlyState, onlyFirst,
    ?_, fun other inside different => ?_⟩
  · rw [isStates]
    exact isState
  · rw [sent, resent, continues, ← StatefulSourceImpl.records_append]
  · have away : other ≠ Keyed.rendezvousSelect hash part workers :=
      owned.symm ▸ different
    obtain ⟨unbuilt, silent⟩ := after.elsewhere again inside away
    exact ⟨unbuilt, silent, (before.elsewhere placed inside away).2⟩

end

/-- Partitions which count up from what they are given. -/
def counting : StatefulSource Bool UInt8 Nat UInt8 UInt8 where
  operatorId := 0
  builder :=
    { listParts := [true, false]
      buildPart := fun _ state => state.getD 0
      poll := fun next => (some (next, 0), next + 1)
      isFinished := fun next => (false, next)
      snapshot := id
      collect := id
      suspend := id }
  maxTime := 0
  encode := byteCodec.toVec
  decode bytes := (byteCodec.fromSlice bytes).getD 0

def ownerHash (part : Bool) (worker : WorkerId) : Nat :=
  if part then worker else 1 - worker

/-- Two workers take a snapshot as soon as the parts are listed. -/
def snapshotTrace : List (SourceStream.Event Bool) :=
  [.list 0 (some .absBarrier), .list 1 (some .absBarrier),
    .receiveLocal 0, .receiveLocal 0, .receiveLocal 0, .receiveLocal 1,
    .receiveRemote 0 1, .tryEmitBarrier 0, .receiveRemote 1 0,
    .receiveRemote 1 0, .tryEmitBarrier 1, .partition 0, .partition 0,
    .partition 1, .partition 1]

theorem counting_restarts :
    let step := counting.stepStream ownerHash mapCodec
    let start := counting.startStream ownerHash two
    let stopped := replay step (start fun _ => none) snapshotTrace
    counting.builder.Continues ∧
    Follows step (SourceStream.Fixed two) (start fun _ => none) snapshotTrace ∧
    (∀ worker ∈ two.items,
      (stopped.sites worker).persisted.length = 1 ∧
      recordsOf (decide (worker = 1))
        ((stopped.sites worker).recordsBefore 1) = [(0, 0)]) ∧
    ∃ resumed : WorkerId → Option (IndexMap Bool UInt8),
      (∀ worker ∈ two,
        mapCodec.loadState (stopped.sites worker).persisted[0]? =
          .ok (resumed worker)) ∧
      Placed ownerHash two resumed ∧
      ∀ later, Reaches step (SourceStream.Fixed two) (start resumed) later →
        ∀ part ∈ counting.builder.listParts,
          ∃ worker ∈ two, ∃ first state calls,
            (resumed worker).bind (fun states => states.get? part) =
              some state ∧
            (later.sites worker).builtOf part = [(part, some state)] ∧
            (stopped.sites worker).builtOf part = [(part, first)] ∧
            recordsOf part ((stopped.sites worker).recordsBefore 1) ++
              recordsOf part (later.sites worker).records =
                counting.builder.records
                  (counting.builder.buildPart part first) calls ∧
            ∀ other ∈ two, other ≠ worker →
              (later.sites other).builtOf part = [] ∧
              recordsOf part (later.sites other).records = [] ∧
              recordsOf part (stopped.sites other).records = [] := by
  have continues : counting.builder.Continues := fun _ _ _ _ => rfl
  have follows : Follows (counting.stepStream ownerHash mapCodec)
      (SourceStream.Fixed two)
      (counting.startStream ownerHash two fun _ => none) snapshotTrace := by
    decide
  have persisted : ∀ worker ∈ two.items,
      ((replay (counting.stepStream ownerHash mapCodec)
        (counting.startStream ownerHash two fun _ => none)
        snapshotTrace).sites worker).persisted.length = 1 := by
    decide
  refine ⟨continues, follows, fun worker member => ⟨persisted worker member, ?_⟩,
    StatefulSource.restarts continues ownerHash mapCodec (by decide)
      (fun _ _ _ found => by cases found) (follows.reaches _ .refl)
      fun worker member => (persisted worker member).symm ▸ Nat.zero_lt_one⟩
  revert worker
  decide

end Malstrom.Sources
