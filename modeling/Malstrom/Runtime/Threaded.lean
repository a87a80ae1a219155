import Mathlib.Data.List.Nodup
import Mathlib.Data.List.Perm.Subperm
import Malstrom.Types
import Malstrom.Data.Transition

namespace Malstrom.Runtime

open Data

/-! The threads of a `MultiThreadRuntime` and the rescales asked of it. -/

inductive ThreadStatus where
  | running
  /-- Out of its execution loop: removed by a rescale, completed or
  suspended. -/
  | left
  | finished
  deriving DecidableEq

structure Thread where
  worker : Option WorkerId
  status : ThreadStatus
  deriving DecidableEq

structure MultiThreadRuntime where
  threads : List Thread
  /-- Rescales `execute` has not handled yet. -/
  rescaleReq : List Nat
  /-- The coordinator was last asked for the workers below this. -/
  desired : Nat
  /-- The coordinator has not answered the last rescale. -/
  reconfiguring : Bool
  deriving DecidableEq

def spawnWorker (worker : WorkerId) : Thread :=
  { worker := some worker, status := .running }

def coordinatorThread : Thread := { worker := none, status := .running }

inductive MultiThreadRuntime.Event where
  /-- A call of `MultiThreadRuntimeApiHandle::rescale`. -/
  | rescale (desired : Nat)
  /-- `execute` takes a request. -/
  | handle
  /-- `execute` drops the handles of finished threads. -/
  | retain
  /-- The coordinator has completed the last rescale. -/
  | reconfigured
  /-- A worker leaves its loop without being removed. -/
  | leave (index : Nat)
  | finish (index : Nat)
  deriving DecidableEq

namespace Thread

def isLive (thread : Thread) : Bool := thread.status != .finished

def serves (worker : WorkerId) (thread : Thread) : Bool :=
  thread.worker == some worker && thread.status == .running

def remove (desired : Nat) (thread : Thread) : Thread :=
  match thread.worker with
  | some worker =>
      if desired ≤ worker ∧ thread.status = .running then
        { thread with status := .left }
      else thread
  | none => thread

end Thread

namespace MultiThreadRuntime

def start (parallelism : Nat) : MultiThreadRuntime :=
  { threads := (List.range parallelism).map spawnWorker ++ [coordinatorThread]
    rescaleReq := []
    desired := parallelism
    reconfiguring := false }

/-- The workers from the number of threads up to what is desired. -/
def toSpawn (actual desired : Nat) : List WorkerId :=
  if desired > actual then List.range' actual (desired - actual) else []

def handleRequest (runtime : MultiThreadRuntime) : MultiThreadRuntime :=
  match runtime.rescaleReq with
  | [] => runtime
  | desired :: rest =>
      let actual := runtime.threads.length
      { runtime with
        threads := runtime.threads ++
          (toSpawn actual desired).map spawnWorker
        rescaleReq := rest }

def setStatus (runtime : MultiThreadRuntime) (index : Nat)
    (status : ThreadStatus) : MultiThreadRuntime :=
  { runtime with threads := runtime.threads.modify index fun thread =>
      { thread with status := status } }

def next (runtime : MultiThreadRuntime) : Event → MultiThreadRuntime
  | .rescale desired =>
      { runtime with
        rescaleReq := runtime.rescaleReq ++ [desired]
        desired := desired
        reconfiguring := true }
  | .handle => runtime.handleRequest
  | .retain => { runtime with threads := runtime.threads.filter Thread.isLive }
  | .reconfigured =>
      { runtime with
        threads := runtime.threads.map (Thread.remove runtime.desired)
        reconfiguring := false }
  | .leave index => runtime.setStatus index .left
  | .finish index => runtime.setStatus index .finished

def step (runtime : MultiThreadRuntime) (event : Event) :
    Except Empty MultiThreadRuntime := .ok (runtime.next event)

/-- A rescale follows the completion of the one before.  A worker's thread
finishes some time after the worker has left its loop, the coordinator's once
no worker runs. -/
def allowed (runtime : MultiThreadRuntime) : Event → Prop
  | .rescale desired => 1 ≤ desired ∧ runtime.reconfiguring = false
  | .handle | .retain => True
  | .reconfigured => runtime.reconfiguring = true
  | .leave index => ∃ thread ∈ runtime.threads[index]?,
      thread.worker ≠ none ∧ thread.status = .running
  | .finish index => ∃ thread ∈ runtime.threads[index]?,
      thread.status = .left ∨ thread.worker = none ∧
        ∀ other ∈ runtime.threads, other.worker ≠ none →
          other.status ≠ .running

/-- No rescale raises the parallelism, workers leave only when removed, and a
request is handled before a thread it would spawn anew is missing from the
handles. -/
def lowers (runtime : MultiThreadRuntime) : Event → Prop
  | .rescale desired => desired ≤ runtime.desired
  | .handle => ∀ desired ∈ runtime.rescaleReq.head?,
      ∀ thread ∈ runtime.threads, thread.isLive = true →
      ∀ worker ∈ thread.worker,
        desired ≤ worker ∨ worker < runtime.threads.length
  | .leave _ => False
  | .retain | .reconfigured | .finish _ => True

instance (runtime : MultiThreadRuntime) :
    (event : Event) → Decidable (runtime.allowed event)
  | .rescale _ => inferInstanceAs (Decidable (_ ∧ _))
  | .handle | .retain => isTrue trivial
  | .reconfigured => inferInstanceAs (Decidable (_ = _))
  | .leave index => inferInstanceAs (Decidable (∃ thread ∈
      runtime.threads[index]?, thread.worker ≠ none ∧
        thread.status = .running))
  | .finish index => inferInstanceAs (Decidable (∃ thread ∈
      runtime.threads[index]?, thread.status = .left ∨ thread.worker = none ∧
        ∀ other ∈ runtime.threads, other.worker ≠ none →
          other.status ≠ .running))

instance (runtime : MultiThreadRuntime) :
    (event : Event) → Decidable (runtime.lowers event)
  | .rescale _ => inferInstanceAs (Decidable (_ ≤ _))
  | .handle => inferInstanceAs (Decidable (∀ desired ∈
      runtime.rescaleReq.head?, ∀ thread ∈ runtime.threads,
      thread.isLive = true → ∀ worker ∈ thread.worker,
        desired ≤ worker ∨ worker < runtime.threads.length))
  | .leave _ => isFalse id
  | .retain | .reconfigured | .finish _ => isTrue trivial

def liveWorkers (threads : List Thread) : List WorkerId :=
  (threads.filter Thread.isLive).filterMap Thread.worker

def serves (runtime : MultiThreadRuntime) (worker : WorkerId) : Prop :=
  ∃ thread ∈ runtime.threads, thread.serves worker = true

/-- Every worker the coordinator reconfigures to has a thread and no worker has
two. -/
structure Provides (runtime : MultiThreadRuntime) : Prop where
  served : ∀ worker < runtime.desired, runtime.serves worker
  once : (liveWorkers runtime.threads).Nodup

/-- A provided runtime whose coordinator thread has not ended. -/
structure Sound (runtime : MultiThreadRuntime) : Prop
    extends Provides runtime where
  positive : 1 ≤ runtime.desired
  coordinator : ∃ thread ∈ runtime.threads,
    thread.worker = none ∧ thread.status = .running
  settled : runtime.reconfiguring = false →
    ∀ worker, runtime.serves worker → worker ≠ runtime.desired

theorem mem_toSpawn {actual desired worker : Nat} :
    worker ∈ toSpawn actual desired ↔ actual ≤ worker ∧ worker < desired := by
  unfold toSpawn
  split
  next => rw [List.mem_range'_1]; omega
  next => simp; omega

theorem nodup_toSpawn (actual desired : Nat) :
    (toSpawn actual desired).Nodup := by
  unfold toSpawn
  split
  next => exact List.nodup_range'
  next => exact List.nodup_nil

theorem serves_iff {runtime : MultiThreadRuntime} {worker : WorkerId} :
    runtime.serves worker ↔ ∃ thread ∈ runtime.threads,
      thread.worker = some worker ∧ thread.status = .running := by
  simp [serves, Thread.serves]

theorem isLive_of_running {thread : Thread}
    (running : thread.status = .running) : thread.isLive = true := by
  simp [Thread.isLive, running]

@[simp] theorem liveWorkers_append (first second : List Thread) :
    liveWorkers (first ++ second) =
      liveWorkers first ++ liveWorkers second := by
  simp [liveWorkers]

@[simp] theorem liveWorkers_spawned (workers : List WorkerId) :
    liveWorkers (workers.map spawnWorker) = workers := by
  induction workers with
  | nil => rfl
  | cons worker rest ih => exact congrArg (worker :: ·) ih

theorem mem_liveWorkers {threads : List Thread} {worker : WorkerId} :
    worker ∈ liveWorkers threads ↔
      ∃ thread ∈ threads, thread.isLive = true ∧ thread.worker = some worker := by
  simp [liveWorkers, and_assoc]

theorem Sound.length {runtime : MultiThreadRuntime} (sound : runtime.Sound) :
    runtime.desired + 1 ≤ runtime.threads.length := by
  have within : (none :: (List.range runtime.desired).map some) ⊆
      runtime.threads.map Thread.worker := by
    intro label member
    cases List.mem_cons.mp member with
    | inl isNone =>
        obtain ⟨thread, held, noWorker, -⟩ := sound.coordinator
        exact isNone ▸ noWorker ▸ List.mem_map_of_mem held
    | inr isWorker =>
        obtain ⟨worker, isBelow, rfl⟩ := List.mem_map.mp isWorker
        obtain ⟨thread, held, isRun, -⟩ :=
          serves_iff.mp (sound.served worker (List.mem_range.mp isBelow))
        exact isRun ▸ List.mem_map_of_mem held
  have distinct :
      (none :: (List.range runtime.desired).map some).Nodup := by
    refine List.nodup_cons.mpr ⟨by simp, ?_⟩
    exact List.nodup_range.map fun _ _ => Option.some.inj
  simpa using (distinct.subperm within).length_le

theorem start_sound {parallelism : Nat} (positive : 1 ≤ parallelism) :
    (start parallelism).Sound := by
  refine ⟨⟨?_, ?_⟩, positive, ?_, ?_⟩
  · intro worker below
    refine serves_iff.mpr ⟨spawnWorker worker, ?_, rfl, rfl⟩
    exact List.mem_append_left _
      (List.mem_map_of_mem (List.mem_range.mpr below))
  · have noWorker : liveWorkers [coordinatorThread] = [] := rfl
    simpa [start, noWorker] using List.nodup_range
  · exact ⟨coordinatorThread, by simp [start], rfl, rfl⟩
  · intro answered worker serves
    obtain ⟨thread, held, isRun, -⟩ := serves_iff.mp serves
    cases List.mem_append.mp held with
    | inl spawned =>
        obtain ⟨other, isBelow, rfl⟩ := List.mem_map.mp spawned
        obtain rfl : other = worker := Option.some.inj isRun
        exact Nat.ne_of_lt (List.mem_range.mp isBelow)
    | inr coordinator =>
        obtain rfl := List.mem_singleton.mp coordinator
        simp [coordinatorThread] at isRun

/-! What one event keeps. -/

theorem liveWorkers_remove (desired : Nat) (threads : List Thread) :
    liveWorkers (threads.map (Thread.remove desired)) =
      liveWorkers threads := by
  induction threads with
  | nil => rfl
  | cons thread rest ih =>
      have same : (thread.remove desired).worker = thread.worker ∧
          (thread.remove desired).isLive = thread.isLive := by
        unfold Thread.remove
        split
        next isRun =>
          split
          next removed =>
            exact ⟨rfl, by rw [isLive_of_running removed.2]; rfl⟩
          next => exact ⟨rfl, rfl⟩
        next => exact ⟨rfl, rfl⟩
      simp only [liveWorkers] at ih ⊢
      simp only [List.map_cons, List.filter_cons, same.2]
      split
      next => simp only [List.filterMap_cons, same.1, ih]
      next => exact ih

theorem liveWorkers_finish (threads : List Thread) (index : Nat) :
    (liveWorkers (threads.modify index fun thread =>
      { thread with status := .finished })).Sublist (liveWorkers threads) := by
  induction threads generalizing index with
  | nil => simp
  | cons thread rest ih =>
      cases index with
      | zero =>
          rw [List.modify_zero_cons, ← List.singleton_append,
            ← List.singleton_append (l := rest), liveWorkers_append,
            liveWorkers_append]
          exact List.sublist_append_right _ _
      | succ index =>
          have ih := ih index
          simp only [List.modify_succ_cons, liveWorkers, List.filter_cons]
            at ih ⊢
          split
          next =>
            simp only [List.filterMap_cons]
            split
            next => exact ih
            next => exact ih.cons_cons _
          next => exact ih

theorem Sound.handle {runtime : MultiThreadRuntime} (sound : runtime.Sound)
    (lowers : runtime.lowers .handle) : (runtime.next .handle).Sound := by
  cases requests : runtime.rescaleReq with
  | nil => simpa [next, handleRequest, requests] using sound
  | cons desired rest =>
      simp only [next, handleRequest, requests]
      refine ⟨⟨?_, ?_⟩, sound.positive, ?_, ?_⟩
      · intro worker below
        obtain ⟨thread, held, serves⟩ := sound.served worker below
        exact ⟨thread, List.mem_append_left _ held, serves⟩
      · rw [liveWorkers_append, liveWorkers_spawned]
        refine sound.once.append (nodup_toSpawn _ _) fun worker live isNew => ?_
        obtain ⟨thread, held, isLive, isRun⟩ := mem_liveWorkers.mp live
        have requested : desired ∈ runtime.rescaleReq.head? := by
          rw [requests, List.head?_cons, Option.mem_some]
        have within := mem_toSpawn.mp isNew
        cases lowers desired requested thread held isLive worker isRun with
        | inl beyond => exact Nat.not_lt.mpr beyond within.2
        | inr listed => exact Nat.not_lt.mpr within.1 listed
      · obtain ⟨thread, held, isCoordinator⟩ := sound.coordinator
        exact ⟨thread, List.mem_append_left _ held, isCoordinator⟩
      · intro answered worker serves
        obtain ⟨thread, held, isRun, running⟩ := serves_iff.mp serves
        cases List.mem_append.mp held with
        | inl earlier =>
            exact sound.settled answered worker
              (serves_iff.mpr ⟨thread, earlier, isRun, running⟩)
        | inr later =>
            obtain ⟨other, isNew, rfl⟩ := List.mem_map.mp later
            obtain rfl : other = worker := Option.some.inj isRun
            have isBeyond := (mem_toSpawn.mp isNew).1
            exact Nat.ne_of_gt (Nat.lt_of_lt_of_le sound.length isBeyond)

theorem Sound.retain {runtime : MultiThreadRuntime} (sound : runtime.Sound) :
    (runtime.next .retain).Sound := by
  refine ⟨⟨?_, ?_⟩, sound.positive, ?_, ?_⟩
  · intro worker below
    obtain ⟨thread, held, isRun, running⟩ :=
      serves_iff.mp (sound.served worker below)
    exact serves_iff.mpr ⟨thread,
      List.mem_filter.mpr ⟨held, isLive_of_running running⟩, isRun, running⟩
  · simpa [next, liveWorkers, List.filter_filter] using sound.once
  · obtain ⟨thread, held, noWorker, running⟩ := sound.coordinator
    exact ⟨thread, List.mem_filter.mpr ⟨held, isLive_of_running running⟩,
      noWorker, running⟩
  · intro answered worker serves
    obtain ⟨thread, held, serves⟩ := serves
    exact sound.settled answered worker
      ⟨thread, (List.mem_filter.mp held).1, serves⟩

theorem Sound.reconfigured {runtime : MultiThreadRuntime}
    (sound : runtime.Sound) : (runtime.next .reconfigured).Sound := by
  refine ⟨⟨?_, ?_⟩, sound.positive, ?_, ?_⟩
  · intro worker below
    obtain ⟨thread, held, isRun, running⟩ :=
      serves_iff.mp (sound.served worker below)
    have kept : thread.remove runtime.desired = thread := by
      have : ¬runtime.desired ≤ worker := Nat.not_le.mpr below
      simp [Thread.remove, isRun, this]
    exact serves_iff.mpr ⟨thread, List.mem_map.mpr ⟨thread, held, kept⟩,
      isRun, running⟩
  · simpa [next, liveWorkers_remove] using sound.once
  · obtain ⟨thread, held, noWorker, running⟩ := sound.coordinator
    exact ⟨thread,
      List.mem_map.mpr ⟨thread, held, by simp [Thread.remove, noWorker]⟩,
      noWorker, running⟩
  · intro answered worker serves
    obtain ⟨thread, held, isRun, running⟩ := serves_iff.mp serves
    obtain ⟨before, held, rfl⟩ := List.mem_map.mp held
    cases noRun : before.worker with
    | none => simp [Thread.remove, noRun] at isRun
    | some other =>
        simp only [Thread.remove, noRun] at isRun running
        split at running
        next => simp at running
        next kept =>
          rw [if_neg kept, noRun] at isRun
          obtain rfl : other = worker := Option.some.inj isRun
          exact fun same => kept ⟨Nat.le_of_eq same.symm, running⟩

theorem mem_setStatus {runtime : MultiThreadRuntime} {index : Nat}
    {status : ThreadStatus} {changed thread : Thread}
    (found : runtime.threads[index]? = some changed)
    (held : thread ∈ runtime.threads) (other : thread ≠ changed) :
    thread ∈ (runtime.setStatus index status).threads := by
  obtain ⟨position, isHeld⟩ := List.mem_iff_getElem?.mp held
  refine List.mem_iff_getElem?.mpr ⟨position, ?_⟩
  have ne : index ≠ position := by
    rintro rfl
    exact other (Option.some.inj (isHeld.symm.trans found))
  simp [setStatus, ne, isHeld]

theorem of_mem_setStatus {runtime : MultiThreadRuntime} {index : Nat}
    {status : ThreadStatus} {thread : Thread}
    (held : thread ∈ (runtime.setStatus index status).threads) :
    thread ∈ runtime.threads ∨ thread.status = status := by
  obtain ⟨position, isHeld⟩ := List.mem_iff_getElem?.mp held
  rw [setStatus, List.getElem?_modify] at isHeld
  obtain ⟨before, found, rfl⟩ := Option.map_eq_some_iff.mp isHeld
  split
  next => exact .inr rfl
  next => exact .inl (List.mem_of_getElem? found)

theorem Sound.finish {runtime : MultiThreadRuntime} (sound : runtime.Sound)
    {index : Nat} (allowed : runtime.allowed (.finish index)) :
    (runtime.next (.finish index)).Sound := by
  obtain ⟨ending, found, ended⟩ := allowed
  -- the coordinator outlives the worker which is always desired
  have ended : ending.status = .left := by
    cases ended with
    | inl left => exact left
    | inr idle =>
        obtain ⟨thread, held, isRun, running⟩ :=
          serves_iff.mp (sound.served 0 sound.positive)
        exact absurd running (idle.2 thread held (by simp [isRun]))
  refine ⟨⟨?_, ?_⟩, sound.positive, ?_, ?_⟩
  · intro worker below
    obtain ⟨thread, held, isRun, running⟩ :=
      serves_iff.mp (sound.served worker below)
    have other : thread ≠ ending := by
      rintro rfl
      simp [running] at ended
    exact serves_iff.mpr ⟨thread, mem_setStatus found held other, isRun,
      running⟩
  · exact sound.once.sublist (liveWorkers_finish _ _)
  · obtain ⟨thread, held, noWorker, running⟩ := sound.coordinator
    have other : thread ≠ ending := by
      rintro rfl
      simp [running] at ended
    exact ⟨thread, mem_setStatus found held other, noWorker, running⟩
  · intro answered worker serves
    obtain ⟨thread, held, isRun, running⟩ := serves_iff.mp serves
    cases of_mem_setStatus held with
    | inl earlier =>
        exact sound.settled answered worker
          (serves_iff.mpr ⟨thread, earlier, isRun, running⟩)
    | inr finished => simp [running] at finished

theorem Sound.step {runtime next : MultiThreadRuntime} {event : Event}
    (sound : runtime.Sound) (allowed : runtime.allowed event)
    (lowers : runtime.lowers event) (stepped : runtime.step event = .ok next) :
    next.Sound := by
  obtain rfl := Except.ok.inj stepped
  cases event with
  | rescale desired =>
      refine ⟨⟨?_, sound.once⟩, allowed.1, sound.coordinator, ?_⟩
      · intro worker below
        exact sound.served worker (Nat.lt_of_lt_of_le below lowers)
      · intro answered
        simp [MultiThreadRuntime.next] at answered
  | handle => exact sound.handle lowers
  | retain => exact sound.retain
  | reconfigured => exact sound.reconfigured
  | leave index => exact absurd lowers id
  | finish index => exact sound.finish allowed

/-- With all earlier requests handled, the next one finds every worker it asks
for if and only if it does not raise the parallelism: the coordinator's handle
counts as a worker. -/
theorem Sound.raise {runtime : MultiThreadRuntime} (sound : runtime.Sound)
    (handled : runtime.rescaleReq = [])
    (answered : runtime.reconfiguring = false) (desired : Nat) :
    (∀ worker < desired,
      ((runtime.next (.rescale desired)).next .handle).serves worker) ↔
      desired ≤ runtime.desired := by
  constructor
  · intro served
    by_contra raises
    obtain ⟨thread, held, isRun, running⟩ :=
      serves_iff.mp (served runtime.desired (Nat.lt_of_not_le raises))
    simp only [next, handleRequest, handled, List.nil_append] at held
    cases List.mem_append.mp held with
    | inl earlier =>
        exact sound.settled answered runtime.desired
          (serves_iff.mpr ⟨thread, earlier, isRun, running⟩) rfl
    | inr later =>
        obtain ⟨other, isNew, rfl⟩ := List.mem_map.mp later
        obtain rfl : other = runtime.desired := Option.some.inj isRun
        exact Nat.not_lt.mpr (mem_toSpawn.mp isNew).1 sound.length
  · intro lowers worker below
    obtain ⟨thread, held, serves⟩ :=
      sound.served worker (Nat.lt_of_lt_of_le below lowers)
    refine ⟨thread, ?_, serves⟩
    simp only [next, handleRequest, handled, List.nil_append]
    exact List.mem_append_left _ held

/-- The threads are those of the workers the coordinator reconfigures to as
long as no rescale raises the parallelism, and a rescale which does is not
provided for. -/
theorem rescale_provides {parallelism : Nat} (positive : 1 ≤ parallelism)
    {runtime : MultiThreadRuntime}
    (run : Reaches step
      (fun runtime event => runtime.allowed event ∧ runtime.lowers event)
      (start parallelism) runtime) :
    runtime.Provides ∧
      (runtime.rescaleReq = [] → runtime.reconfiguring = false →
        ∀ desired, (∀ worker < desired,
          ((runtime.next (.rescale desired)).next .handle).serves worker) ↔
          desired ≤ runtime.desired) := by
  have sound : runtime.Sound :=
    run.invariant _ (start_sound positive)
      fun _ _ _ _ sound permitted stepped =>
        sound.step permitted.1 permitted.2 stepped
  exact ⟨sound.toProvides, sound.raise⟩

/-! Three workers of which one is removed, and one worker which is to become
two. -/

def lowered : MultiThreadRuntime :=
  { threads := [spawnWorker 0, spawnWorker 1, coordinatorThread]
    rescaleReq := []
    desired := 2
    reconfiguring := false }

theorem lowered_provides : lowered.Provides := by
  have run : Reaches step
      (fun runtime event => runtime.allowed event ∧ runtime.lowers event)
      (start 3) lowered :=
    Follows.reaches [Event.rescale 2, Event.reconfigured, Event.finish 2,
      Event.retain, Event.handle] .refl (by decide)
  exact (rescale_provides (by decide) run).1

def raised : MultiThreadRuntime :=
  { threads := [spawnWorker 0, coordinatorThread]
    rescaleReq := []
    desired := 2
    reconfiguring := true }

theorem raised_starves :
    Reaches step allowed (start 1) raised ∧ raised.rescaleReq = [] ∧
      raised.desired = 2 ∧ ¬raised.serves 1 := by
  refine ⟨?_, rfl, rfl, ?_⟩
  · exact Follows.reaches [Event.rescale 2, Event.handle] .refl (by decide)
  · rw [serves_iff]
    decide

end MultiThreadRuntime

end Malstrom.Runtime
