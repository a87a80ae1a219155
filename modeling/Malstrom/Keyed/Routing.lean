import Malstrom.Keyed.Distributor

namespace Malstrom.Keyed

open Data

variable {K V T : Type}

/-! What a distributor's router can do with one record, and what it knows of
the other workers while it decides. -/

namespace Remotes

def lastVersion (remotes : Remotes T) (worker : WorkerId) : Option Version :=
  (remotes.get? worker).bind RemoteState.lastVersion

def lastAck (remotes : Remotes T) (worker : WorkerId) : Option Version :=
  (remotes.get? worker).bind RemoteState.lastAckVersion

theorem lastVersion_eq_some {remotes : Remotes T} {worker : WorkerId}
    {version : Version} :
    ((remotes.get? worker).map fun state =>
        decide (state.lastVersion = some version)).getD false = true ↔
      remotes.lastVersion worker = some version := by
  unfold lastVersion
  cases remotes.get? worker with
  | none => simp
  | some state => simp

/-- The same clients, at the same versions. -/
structure Agree (left right : Remotes T) : Prop where
  members : ∀ worker, worker ∈ left ↔ worker ∈ right
  lastVersion : ∀ worker, Remotes.lastVersion left worker =
    Remotes.lastVersion right worker
  lastAck : ∀ worker, Remotes.lastAck left worker = Remotes.lastAck right worker

theorem Agree.refl (remotes : Remotes T) : Agree remotes remotes :=
  ⟨fun _ => Iff.rfl, fun _ => rfl, fun _ => rfl⟩

theorem agree_modify (remotes : Remotes T) (remote : WorkerId)
    (change : RemoteState T → RemoteState T)
    (keepsVersion : ∀ state, (change state).lastVersion = state.lastVersion)
    (keepsAck : ∀ state, (change state).lastAckVersion = state.lastAckVersion) :
    Agree (remotes.modify remote change) remotes where
  members worker := IndexMap.mem_modify
  lastVersion worker := by
    simp only [Remotes.lastVersion, IndexMap.get?_modify]
    split
    · cases remotes.get? worker with
      | none => rfl
      | some state => exact keepsVersion state
    · rfl
  lastAck worker := by
    simp only [Remotes.lastAck, IndexMap.get?_modify]
    split
    · cases remotes.get? worker with
      | none => rfl
      | some state => exact keepsAck state
    · rfl

theorem agree_mapValues (remotes : Remotes T)
    (change : RemoteState T → RemoteState T)
    (keepsVersion : ∀ state, (change state).lastVersion = state.lastVersion)
    (keepsAck : ∀ state, (change state).lastAckVersion = state.lastAckVersion) :
    Agree (remotes.mapValues change) remotes where
  members worker := IndexMap.mem_mapValues
  lastVersion worker := by
    simp only [Remotes.lastVersion, IndexMap.get?_mapValues]
    cases remotes.get? worker with
    | none => rfl
    | some state => exact keepsVersion state
  lastAck worker := by
    simp only [Remotes.lastAck, IndexMap.get?_mapValues]
    cases remotes.get? worker with
    | none => rfl
    | some state => exact keepsAck state

end Remotes

structure Arrival (K V T : Type) where
  message : DataMessage K V T
  /-- Absent for the record of the local upstream. -/
  version : Option Version
  sender : WorkerId

/-- What the router in charge does with a record, state by state: the router
afterwards and the target. -/
inductive Ruled [DecidableEq K] (partitioner : WorkerPartitioner K)
    (thisWorker : WorkerId) (remotes : Remotes T) (arrival : Arrival K V T) :
    MessageRouter K V T → MessageRouter K V T → Option WorkerId → Prop
  | normal {router : NormalRouter} :
      Ruled partitioner thisWorker remotes arrival (.normal router)
        (.normal router)
        (some (partitioner arrival.message.key router.workerSet))
  | whitelisted {router : InterrogateRouter K}
      (oldHere : partitioner arrival.message.key router.oldWorkerSet = thisWorker)
      (newAway : partitioner arrival.message.key router.newWorkerSet ≠ thisWorker) :
      Ruled partitioner thisWorker remotes arrival (.interrogate router)
        (.interrogate { router with
          interrogateMsg := router.interrogateMsg.addKeys [arrival.message.key] })
        (some thisWorker)
  | interrogate {router : InterrogateRouter K}
      (stays : partitioner arrival.message.key router.oldWorkerSet = thisWorker →
        partitioner arrival.message.key router.newWorkerSet = thisWorker) :
      Ruled partitioner thisWorker remotes arrival (.interrogate router)
        (.interrogate router)
        (some (partitioner arrival.message.key router.oldWorkerSet))
  | uncollected {router : CollectRouter K V T}
      (newAway : partitioner arrival.message.key router.newWorkerSet ≠ thisWorker)
      (listed : arrival.message.key ∈ router.whitelist) :
      Ruled partitioner thisWorker remotes arrival (.collect router)
        (.collect router) (some thisWorker)
  | buffered {router : CollectRouter K V T}
      (newAway : partitioner arrival.message.key router.newWorkerSet ≠ thisWorker)
      (unlisted : arrival.message.key ∉ router.whitelist)
      (collecting : router.isCollecting arrival.message.key = true) :
      Ruled partitioner thisWorker remotes arrival (.collect router)
        (.collect { router with buffered := router.buffered ++ [arrival.message] })
        none
  | collected {router : CollectRouter K V T}
      (newAway : partitioner arrival.message.key router.newWorkerSet ≠ thisWorker)
      (unlisted : arrival.message.key ∉ router.whitelist)
      (idle : router.isCollecting arrival.message.key = false) :
      Ruled partitioner thisWorker remotes arrival (.collect router)
        (.collect router)
        (some (partitioner arrival.message.key router.newWorkerSet))
  | collectOwned {router : CollectRouter K V T}
      (newHere : partitioner arrival.message.key router.newWorkerSet = thisWorker)
      (fromOld : partitioner arrival.message.key router.oldWorkerSet =
        arrival.sender) :
      Ruled partitioner thisWorker remotes arrival (.collect router)
        (.collect router) (some thisWorker)
  | collectOld {router : CollectRouter K V T}
      (newHere : partitioner arrival.message.key router.newWorkerSet = thisWorker)
      (notFromOld : partitioner arrival.message.key router.oldWorkerSet ≠
        arrival.sender) :
      Ruled partitioner thisWorker remotes arrival (.collect router)
        (.collect router)
        (some (partitioner arrival.message.key router.oldWorkerSet))
  | finishedAway {router : FinishedRouter}
      (newAway : partitioner arrival.message.key router.newWorkerSet ≠ thisWorker) :
      Ruled partitioner thisWorker remotes arrival (.finished router)
        (.finished router)
        (some (partitioner arrival.message.key router.newWorkerSet))
  | finishedOwned {router : FinishedRouter}
      (newHere : partitioner arrival.message.key router.newWorkerSet = thisWorker)
      (released : partitioner arrival.message.key router.oldWorkerSet = thisWorker ∨
        partitioner arrival.message.key router.oldWorkerSet = arrival.sender ∨
        remotes.lastVersion
          (partitioner arrival.message.key router.oldWorkerSet) =
            some router.version) :
      Ruled partitioner thisWorker remotes arrival (.finished router)
        (.finished router) (some thisWorker)
  | finishedOld {router : FinishedRouter}
      (newHere : partitioner arrival.message.key router.newWorkerSet = thisWorker)
      (oldAway : partitioner arrival.message.key router.oldWorkerSet ≠ thisWorker)
      (notFromOld : partitioner arrival.message.key router.oldWorkerSet ≠
        arrival.sender)
      (holding : remotes.lastVersion
        (partitioner arrival.message.key router.oldWorkerSet) ≠
          some router.version) :
      Ruled partitioner thisWorker remotes arrival (.finished router)
        (.finished router)
        (some (partitioner arrival.message.key router.oldWorkerSet))

/-- A record of a higher version stays here whatever the router's state. -/
inductive Routed [DecidableEq K] (partitioner : WorkerPartitioner K)
    (thisWorker : WorkerId) (remotes : Remotes T) (arrival : Arrival K V T)
    (router : MessageRouter K V T) :
    MessageRouter K V T → Option WorkerId → Prop
  | ahead {version : Version} (versionEquation : arrival.version = some version)
      (newer : router.version < version) :
      Routed partitioner thisWorker remotes arrival router router
        (some thisWorker)
  | ruled {next : MessageRouter K V T} {target : Option WorkerId}
      (known : ∀ version, arrival.version = some version →
        version ≤ router.version)
      (rule : Ruled partitioner thisWorker remotes arrival router next target) :
      Routed partitioner thisWorker remotes arrival router next target

theorem InterrogateRouter.ruled [DecidableEq K] (router : InterrogateRouter K)
    (arrival : Arrival K V T) (partitioner : WorkerPartitioner K)
    (thisWorker : WorkerId) (remotes : Remotes T) :
    Ruled partitioner thisWorker remotes arrival (.interrogate router)
      (.interrogate
        (router.routeMessage arrival.message.key partitioner thisWorker).1)
      (some (router.routeMessage arrival.message.key partitioner
        thisWorker).2) := by
  unfold InterrogateRouter.routeMessage
  by_cases oldHere :
      partitioner arrival.message.key router.oldWorkerSet = thisWorker
  · by_cases newHere :
        partitioner arrival.message.key router.newWorkerSet = thisWorker
    · simp only [oldHere, newHere, decide_true]
      have rule : Ruled partitioner thisWorker remotes arrival
          (.interrogate router) (.interrogate router) _ :=
        .interrogate fun _ => newHere
      simpa only [oldHere] using rule
    · simp only [oldHere, newHere, decide_true, decide_false]
      exact Ruled.whitelisted oldHere newHere
  · simp only [oldHere, decide_false]
    exact Ruled.interrogate fun here => absurd here oldHere

theorem CollectRouter.ruled [DecidableEq K] (router : CollectRouter K V T)
    (arrival : Arrival K V T) (partitioner : WorkerPartitioner K)
    (thisWorker : WorkerId) (remotes : Remotes T) :
    ∃ target, Ruled partitioner thisWorker remotes arrival (.collect router)
        (.collect (router.routeMessage arrival.message partitioner thisWorker
          arrival.sender).1) target ∧
      (router.routeMessage arrival.message partitioner thisWorker
        arrival.sender).2 = target.map fun worker => (arrival.message, worker) := by
  unfold CollectRouter.routeMessage
  by_cases newHere :
      partitioner arrival.message.key router.newWorkerSet = thisWorker
  · by_cases fromOld :
        partitioner arrival.message.key router.oldWorkerSet = arrival.sender
    · simp only [newHere, decide_true, fromOld, if_true]
      exact ⟨_, .collectOwned newHere fromOld, rfl⟩
    · simp only [newHere, decide_true, fromOld, if_false]
      exact ⟨_, .collectOld newHere fromOld, rfl⟩
  · by_cases listed : arrival.message.key ∈ router.whitelist
    · simp only [newHere, decide_false, listed, decide_true]
      exact ⟨_, .uncollected newHere listed, rfl⟩
    · cases collecting : router.isCollecting arrival.message.key with
      | true =>
          simp only [newHere, decide_false, listed]
          exact ⟨_, .buffered newHere listed collecting, rfl⟩
      | false =>
          simp only [newHere, decide_false, listed]
          exact ⟨_, .collected newHere listed collecting, rfl⟩

theorem FinishedRouter.ruled [DecidableEq K] (router : FinishedRouter)
    (arrival : Arrival K V T) (partitioner : WorkerPartitioner K)
    (thisWorker : WorkerId) (remotes : Remotes T) :
    Ruled partitioner thisWorker remotes arrival (.finished router)
      (.finished router)
      (some (router.routeMessage arrival.message.key partitioner thisWorker
        arrival.sender remotes)) := by
  simp only [FinishedRouter.routeMessage, Remotes.lastVersion_eq_some]
  split
  next newHere =>
    split
    next same =>
      rw [newHere]
      exact .finishedOwned newHere (.inl (same.trans newHere))
    next different =>
      have oldAway : partitioner arrival.message.key router.oldWorkerSet ≠
          thisWorker := fun here => different (here.trans newHere.symm)
      split
      next fromOld => exact .finishedOwned newHere (.inr (.inl fromOld))
      next notFromOld =>
        split
        next upgraded =>
          rw [newHere]
          exact .finishedOwned newHere (.inr (.inr upgraded))
        next holding => exact .finishedOld newHere oldAway notFromOld holding
  next newAway => exact .finishedAway newAway

theorem MessageRouter.routed [DecidableEq K] (router : MessageRouter K V T)
    (arrival : Arrival K V T) (partitioner : WorkerPartitioner K)
    (thisWorker : WorkerId) (remotes : Remotes T) :
    ∃ target, Routed partitioner thisWorker remotes arrival router
        (router.routeMessage arrival.message arrival.version partitioner
          thisWorker arrival.sender remotes).1 target ∧
      (router.routeMessage arrival.message arrival.version partitioner
        thisWorker arrival.sender remotes).2 =
          target.map fun worker => (arrival.message, worker) := by
  unfold MessageRouter.routeMessage
  split
  next newer =>
    cases versionEquation : arrival.version with
    | none => simp [versionEquation] at newer
    | some version =>
        have later : router.version < version := by
          simpa [versionEquation] using newer
        exact ⟨some thisWorker, .ahead versionEquation later, rfl⟩
  next notNewer =>
    have known : ∀ version, arrival.version = some version →
        version ≤ router.version := by
      intro version versionEquation
      simpa [versionEquation] using notNewer
    cases router with
    | normal normalRouter => exact ⟨_, .ruled known .normal, rfl⟩
    | interrogate interrogateRouter =>
        exact ⟨_, .ruled known (interrogateRouter.ruled arrival partitioner
          thisWorker remotes), rfl⟩
    | collect collectRouter =>
        obtain ⟨target, rule, outcome⟩ := collectRouter.ruled arrival
          partitioner thisWorker remotes
        exact ⟨target, .ruled known rule, outcome⟩
    | finished finishedRouter =>
        exact ⟨_, .ruled known (finishedRouter.ruled arrival partitioner
          thisWorker remotes), rfl⟩

/-- The router and the target a record is routed to are those the router
computes. -/
theorem Routed.routeMessage [DecidableEq K] {partitioner : WorkerPartitioner K}
    {thisWorker : WorkerId} {remotes : Remotes T} {arrival : Arrival K V T}
    {router router' : MessageRouter K V T} {target : Option WorkerId}
    (routed : Routed partitioner thisWorker remotes arrival router router'
      target) :
    router.routeMessage arrival.message arrival.version partitioner thisWorker
        arrival.sender remotes =
      (router', target.map fun worker => (arrival.message, worker)) := by
  cases routed with
  | ahead versionEquation newer =>
      simp [MessageRouter.routeMessage, versionEquation, newer]
  | ruled known rule =>
      have notAhead : ∀ version, arrival.version = some version →
          ¬router.version < version := fun version isVersion =>
        Nat.not_lt.mpr (known version isVersion)
      unfold MessageRouter.routeMessage
      rw [if_neg (by
        cases isVersion : arrival.version with
        | none => simp
        | some version => simpa using notAhead version isVersion)]
      cases rule with
      | normal => rfl
      | whitelisted oldHere newAway =>
          simp [InterrogateRouter.routeMessage, oldHere, newAway]
      | @interrogate router stays =>
          by_cases oldHere :
              partitioner arrival.message.key router.oldWorkerSet = thisWorker
          · simp [InterrogateRouter.routeMessage, oldHere, stays oldHere]
          · simp [InterrogateRouter.routeMessage, oldHere]
      | uncollected newAway listed =>
          simp [CollectRouter.routeMessage, newAway, listed]
      | buffered newAway unlisted collecting =>
          simp [CollectRouter.routeMessage, newAway, unlisted, collecting]
      | collected newAway unlisted idle =>
          simp [CollectRouter.routeMessage, newAway, unlisted, idle]
      | collectOwned newHere fromOld =>
          simp [CollectRouter.routeMessage, newHere, fromOld]
      | collectOld newHere notFromOld =>
          simp [CollectRouter.routeMessage, newHere, notFromOld]
      | finishedAway newAway =>
          simp [FinishedRouter.routeMessage, newAway]
      | @finishedOwned router newHere released =>
          simp only [FinishedRouter.routeMessage, newHere, if_true,
            Remotes.lastVersion_eq_some]
          rcases released with oldHere | fromOld | upgraded
          · simp [oldHere]
          · simp [fromOld]
          · simp [upgraded]
      | finishedOld newHere oldAway notFromOld holding =>
          simp [FinishedRouter.routeMessage, newHere, oldAway, notFromOld,
            Remotes.lastVersion_eq_some, holding]
end Malstrom.Keyed
