import Malstrom.Channels.OperatorIo
import Malstrom.Keyed.Distributor

namespace Malstrom

def Message.isCounted {K V T : Type} : Message K V T → Bool
  | .absBarrier | .rescale _ | .suspendMarker => true
  | .data _ | .epoch _ | .interrogate | .collect _ | .acquire _ => false

namespace Keyed

open Data Channels

variable {K V T : Type}

/-! One call of a distributor by its worker: a message of each remote, a
message of the local upstream, and what follows in every call. -/

inductive RunPanic where
  | distributor (panic : Panic)
  | input (panic : InputPanic)

abbrev Mailbox (K V T : Type) := WorkerId → List (NetworkMessage K V T)

/-- The parts of a call: the distributor afterwards and what it did. -/
structure RunResult (K V T : Type) where
  distributor : Distributor K V T
  input : Input K V T
  mail : Mailbox K V T
  /-- What the input returned. -/
  taken : Option (Message K V T)
  effects : Effects K V T

namespace Distributor

def remoteMessages (distributor : Distributor K V T) (mail : Mailbox K V T) :
    List (WorkerId × NetworkMessage K V T) :=
  (distributor.remotes.keys.filter distributor.canReceive).filterMap
    fun remote => (mail remote).head?.map fun message => (remote, message)

def leftMail (distributor : Distributor K V T) (mail : Mailbox K V T) :
    Mailbox K V T :=
  fun remote =>
    if distributor.canReceive remote then (mail remote).tail else mail remote

variable [DecidableEq K] [MaybeTime T]

def receiveRemotes (distributor : Distributor K V T)
    (partitioner : WorkerPartitioner K) (thisWorker : WorkerId) :
    List (WorkerId × NetworkMessage K V T) →
      Except Panic (Distributor K V T × Effects K V T)
  | [] => .ok (distributor, {})
  | (remote, message) :: rest =>
      match distributor.receiveRemote remote message partitioner thisWorker with
      | .error panic => .error panic
      | .ok (next, effects) =>
          match next.receiveRemotes partitioner thisWorker rest with
          | .error panic => .error panic
          | .ok (last, later) => .ok (last, effects.append later)

variable [LT T] [DecidableLT T]

/-- Nothing is received from the local upstream while a barrier is pending. -/
def runLocal (distributor : Distributor K V T) (input : Input K V T)
    (partitioner : WorkerPartitioner K) (thisWorker : WorkerId) :
    Except RunPanic (Distributor K V T × Input K V T × Option (Message K V T) ×
      Effects K V T) :=
  if distributor.localBarrier then .ok (distributor, input, none, {})
  else
    match input.recv with
    | .error panic => .error (.input panic)
    | .ok (none, next) => .ok (distributor, next, none, {})
    | .ok (some message, next) =>
        match distributor.receiveLocal message partitioner thisWorker with
        | .error panic => .error (.distributor panic)
        | .ok (received, effects) => .ok (received, next, some message, effects)

/-- `clones` counts the clones of the router's cell which still exist
elsewhere. -/
def run (distributor : Distributor K V T) (input : Input K V T)
    (mail : Mailbox K V T) (partitioner : WorkerPartitioner K)
    (thisWorker : WorkerId) (clones : Nat) :
    Except RunPanic (RunResult K V T) :=
  match distributor.receiveRemotes partitioner thisWorker
      (distributor.remoteMessages mail) with
  | .error panic => .error (.distributor panic)
  | .ok (heard, fromRemotes) =>
      match heard.runLocal input partitioner thisWorker with
      | .error panic => .error panic
      | .ok (received, next, taken, fromLocal) =>
          let barrier := received.tryEmitBarrier
          let shutdown := barrier.1.tryEmitShutdown
          match shutdown.1.lifecycle partitioner clones with
          | .error panic => .error (.distributor panic)
          | .ok (last, ending) =>
              .ok { distributor := last
                    input := next
                    mail := distributor.leftMail mail
                    taken := taken
                    effects := (((fromRemotes.append fromLocal).append
                      barrier.2).append shutdown.2).append ending }

end Distributor

/-! The stages of a call, each with what it takes from the local upstream and
hands downstream. -/

inductive Stage [DecidableEq K] [MaybeTime T]
    (partitioner : WorkerPartitioner K) (thisWorker : WorkerId)
    (before : Distributor K V T) : Option (Message K V T) →
      Distributor K V T → Effects K V T → Prop
  | heard {remote : WorkerId} {message : NetworkMessage K V T}
      {after : Distributor K V T} {effects : Effects K V T}
      (handled : before.receiveRemote remote message partitioner thisWorker =
        .ok (after, effects)) :
      Stage partitioner thisWorker before none after effects
  | received {message : Message K V T} {after : Distributor K V T}
      {effects : Effects K V T} (free : before.localBarrier = false)
      (handled : before.receiveLocal message partitioner thisWorker =
        .ok (after, effects)) :
      Stage partitioner thisWorker before (some message) after effects
  | barrier : Stage partitioner thisWorker before none before.tryEmitBarrier.1
      before.tryEmitBarrier.2
  | shutdown : Stage partitioner thisWorker before none
      before.tryEmitShutdown.1 before.tryEmitShutdown.2
  | lifecycle {clones : Nat} {after : Distributor K V T}
      {effects : Effects K V T}
      (handled : before.lifecycle partitioner clones = .ok (after, effects)) :
      Stage partitioner thisWorker before none after effects

/-- Stages one after the other, the messages taken and the output in order. -/
inductive Stages [DecidableEq K] [MaybeTime T]
    (partitioner : WorkerPartitioner K) (thisWorker : WorkerId) :
    Distributor K V T → List (Message K V T) → Distributor K V T →
      List (Message K V T) → Prop
  | done {distributor : Distributor K V T} :
      Stages partitioner thisWorker distributor [] distributor []
  | stage {before middle after : Distributor K V T}
      {taken : Option (Message K V T)} {effects : Effects K V T}
      {later output : List (Message K V T)}
      (first : Stage partitioner thisWorker before taken middle effects)
      (rest : Stages partitioner thisWorker middle later after output) :
      Stages partitioner thisWorker before (taken.toList ++ later) after
        (effects.output ++ output)

section

variable [DecidableEq K] [MaybeTime T] {partitioner : WorkerPartitioner K}
  {thisWorker : WorkerId}

theorem Stages.append {before middle after : Distributor K V T}
    {taken later output more : List (Message K V T)}
    (first : Stages partitioner thisWorker before taken middle output)
    (rest : Stages partitioner thisWorker middle later after more) :
    Stages partitioner thisWorker before (taken ++ later) after
      (output ++ more) := by
  induction first with
  | done => exact rest
  | stage stage _ ih =>
      rw [List.append_assoc, List.append_assoc]
      exact .stage stage (ih rest)

theorem Stage.single {before after : Distributor K V T}
    {taken : Option (Message K V T)} {effects : Effects K V T}
    (stage : Stage partitioner thisWorker before taken after effects) :
    Stages partitioner thisWorker before taken.toList after effects.output := by
  have stages := Stages.stage stage .done
  simpa using stages

namespace Distributor

theorem receiveRemotes_stages {messages : List (WorkerId × NetworkMessage K V T)}
    {before after : Distributor K V T} {effects : Effects K V T}
    (handled : before.receiveRemotes partitioner thisWorker messages =
      .ok (after, effects)) :
    Stages partitioner thisWorker before [] after effects.output := by
  induction messages generalizing before effects with
  | nil =>
      obtain ⟨rfl, rfl⟩ := by simpa [receiveRemotes] using handled
      exact .done
  | cons addressed rest ih =>
      obtain ⟨remote, message⟩ := addressed
      simp only [receiveRemotes] at handled
      split at handled
      next => simp at handled
      next next' first received =>
        split at handled
        next => simp at handled
        next last later following =>
          obtain ⟨rfl, rfl⟩ := by simpa using handled
          exact .stage (.heard received) (ih following)

omit [MaybeTime T] in
theorem handleDataMessage_kept {before after : Distributor K V T}
    {message : DataMessage K V T} {version : Option Version}
    {sender : WorkerId} {effects : Effects K V T}
    (handled : before.handleDataMessage message version partitioner thisWorker
      sender = .ok (after, effects)) :
    after = { before with router := (before.router.routeMessage message version
      partitioner thisWorker sender before.remotes).1 } ∧
    ∀ handed ∈ effects.output, ∃ record, handed = .data record := by
  simp only [handleDataMessage] at handled
  split at handled
  next =>
    obtain ⟨rfl, rfl⟩ := by simpa using handled
    exact ⟨rfl, by simp⟩
  next kept target _ =>
    simp only [sendDataMessage] at handled
    split at handled
    next result sent =>
      obtain ⟨rfl, rfl⟩ := by simpa using handled
      refine ⟨rfl, ?_⟩
      split at sent
      next =>
        obtain rfl := Except.ok.inj sent
        simp
      next =>
        split at sent
        next => simp at sent
        next =>
          obtain rfl := Except.ok.inj sent
          simp
    next => simp at handled

end Distributor

end

end Keyed

end Malstrom
