import Malstrom.Data.Transition
import Malstrom.Keyed.Distributor

namespace Malstrom.Keyed

open Data

variable {K V T : Type}

/-! The collection of the keys which leave a worker, from the first to the last
of them. -/

inductive CollectCall (K V T : Type) where
  | routeMessage (message : DataMessage K V T) (sender : WorkerId)
  /-- `clones` counts the clones of the outstanding collect which are left. -/
  | lifecycle (clones : Nat)
  /-- An operator adds its state to the outstanding collect. -/
  | addState (operatorId : OperatorId) (state : Bytes)

/-- The calls a router was given so far, each with what it made the distributor
hand on. -/
abbrev CollectHistory (K V T : Type) :=
  List (CollectCall K V T × Effects K V T)

structure Collection (K V T : Type) where
  router : MessageRouter K V T
  history : CollectHistory K V T

structure CollectSite (K T : Type) where
  partitioner : WorkerPartitioner K
  thisWorker : WorkerId
  remotes : Remotes T
  oldWorkerSet : IndexSet WorkerId
  trigger : RescaleMessage

namespace CollectSite

variable [DecidableEq K] (site : CollectSite K T)

def call (router : CollectRouter K V T) :
    CollectCall K V T → Except Panic (MessageRouter K V T × Effects K V T)
  | .routeMessage message sender =>
      let routed := router.routeMessage message site.partitioner
        site.thisWorker sender
      let distributor : Distributor K V T :=
        { router := .collect routed.1, remotes := site.remotes }
      match routed.2 with
      | none => .ok (.collect routed.1, {})
      | some (kept, target) =>
          match distributor.sendDataMessage kept target site.thisWorker with
          | .ok effects => .ok (.collect routed.1, effects)
          | .error panic => .error panic
  | .lifecycle clones => router.lifecycle site.partitioner site.remotes clones
  | .addState operatorId state =>
      .ok (.collect { router with
        currentCollect := router.currentCollect.map fun collect =>
          collect.addState operatorId state }, {})

/-- A router which has finished is not called any more. -/
def step (collection : Collection K V T) (event : CollectCall K V T) :
    Except Panic (Collection K V T) :=
  match collection.router with
  | .collect router =>
      match site.call router event with
      | .ok (next, effects) =>
          .ok { router := next
                history := collection.history ++ [(event, effects)] }
      | .error panic => .error panic
  | _ => .ok collection

def start (whitelist : IndexSet K) : Collection K V T where
  router := .collect (CollectRouter.new whitelist site.oldWorkerSet
    site.trigger.workers site.trigger)
  history := []

def newTarget (key : K) : WorkerId :=
  site.partitioner key site.trigger.workers

end CollectSite

/-! ### What there is of one key -/

namespace CollectHistory

variable [DecidableEq K]

def arrivals (key : K) (history : CollectHistory K V T) :
    List (DataMessage K V T) :=
  history.filterMap fun
    | (.routeMessage message _, _) =>
        if message.key = key then some message else none
    | _ => none

def handed (key : K) (history : CollectHistory K V T) : List (Message K V T) :=
  (history.flatMap fun entry => entry.2.output).filter fun message =>
    decide (message.key? = some key) || message.isCollect key

def network (history : CollectHistory K V T) :
    List (WorkerId × NetworkMessage K V T) :=
  history.flatMap fun entry => entry.2.network

def sent (key : K) (history : CollectHistory K V T) :
    List (WorkerId × NetworkMessage K V T) :=
  history.network.filter fun addressed =>
    decide (addressed.2.key? = some key)

variable {key : K} {first second history : CollectHistory K V T}
  {entry : CollectCall K V T × Effects K V T}

@[simp] theorem arrivals_append :
    arrivals key (first ++ second) =
      arrivals key first ++ arrivals key second :=
  List.filterMap_append

@[simp] theorem handed_append :
    handed key (first ++ second) = handed key first ++ handed key second := by
  simp [handed]

@[simp] theorem sent_append :
    sent key (first ++ second) = sent key first ++ sent key second := by
  simp [sent, network]

def Waiting (key : K) (history : CollectHistory K V T) : Prop :=
  handed key history = (arrivals key history).map .data ∧
    sent key history = []

/-- `Collect` was emitted for the key, and of its records just those ahead of
that were handed downstream. -/
def Emitted (key : K) (history after : CollectHistory K V T) : Prop :=
  ∃ before clones effects,
    history = before ++ (.lifecycle clones, effects) :: after ∧
    .collect key ∈ effects.output ∧
    handed key history = (arrivals key before).map .data ++ [.collect key]

/-- The records since `Collect` are kept. -/
def Collecting (key : K) (history : CollectHistory K V T)
    (buffered : List (DataMessage K V T)) : Prop :=
  ∃ after, Emitted key history after ∧ sent key history = [] ∧
    arrivals key after = buffered

/-- The state of the key was sent, and behind it its records since
`Collect`. -/
def Moved (target : WorkerId) (version : Version) (key : K)
    (history : CollectHistory K V T) : Prop :=
  ∃ after, Emitted key history after ∧
    ∃ collection, sent key history =
      (target, .acquire { key := key, collection := collection }) ::
        (arrivals key after).map fun message =>
          (target, .data { content := message, version := version })

variable {target : WorkerId} {version : Version}
  {buffered : List (DataMessage K V T)}

theorem Waiting.append (waiting : Waiting key history)
    (kept : handed key [entry] = (arrivals key [entry]).map .data)
    (unsent : sent key [entry] = []) : Waiting key (history ++ [entry]) := by
  constructor
  · simp [waiting.1, kept]
  · simp [waiting.2, unsent]

theorem Emitted.append {after : CollectHistory K V T}
    (emitted : Emitted key history after) (unseen : handed key [entry] = []) :
    Emitted key (history ++ [entry]) (after ++ [entry]) := by
  obtain ⟨before, clones, effects, rfl, collected, ahead⟩ := emitted
  refine ⟨before, clones, effects, by simp, collected, ?_⟩
  rw [handed_append, unseen, List.append_nil, ahead]

theorem Collecting.append (collecting : Collecting key history buffered)
    (unseen : handed key [entry] = []) (unsent : sent key [entry] = []) :
    Collecting key (history ++ [entry])
      (buffered ++ arrivals key [entry]) := by
  obtain ⟨after, emitted, nothing, rfl⟩ := collecting
  refine ⟨after ++ [entry], emitted.append unseen, ?_, arrivals_append⟩
  simp [nothing, unsent]

theorem Moved.append (moved : Moved target version key history)
    (unseen : handed key [entry] = [])
    (followed : sent key [entry] = (arrivals key [entry]).map fun message =>
      (target, .data { content := message, version := version })) :
    Moved target version key (history ++ [entry]) := by
  obtain ⟨after, emitted, collection, isSent⟩ := moved
  refine ⟨after ++ [entry], emitted.append unseen, collection, ?_⟩
  simp [isSent, followed]

theorem Waiting.emit {clones : Nat} {effects : Effects K V T}
    (waiting : Waiting key history) (collected : .collect key ∈ effects.output)
    (alone : handed key [(.lifecycle clones, effects)] = [.collect key])
    (unsent : sent key [(.lifecycle clones, effects)] = []) :
    Collecting key (history ++ [(.lifecycle clones, effects)]) [] := by
  refine ⟨[], ⟨history, clones, effects, rfl, collected, ?_⟩, ?_, rfl⟩
  · rw [handed_append, alone, waiting.1]
  · simp [waiting.2, unsent]

theorem Collecting.release {collection : IndexMap OperatorId Bytes}
    (collecting : Collecting key history buffered)
    (unseen : handed key [entry] = []) (unarrived : arrivals key [entry] = [])
    (released : sent key [entry] =
      (target, .acquire { key := key, collection := collection }) ::
        buffered.map fun message =>
          (target, .data { content := message, version := version })) :
    Moved target version key (history ++ [entry]) := by
  obtain ⟨after, emitted, nothing, rfl⟩ := collecting
  refine ⟨after ++ [entry], emitted.append unseen, collection, ?_⟩
  simp [nothing, released, unarrived]

end CollectHistory

/-! ### What holds while keys are collected -/

namespace CollectHistory

/-- The calls which found the outstanding collect unwrappable. -/
def turns (history : CollectHistory K V T) : Nat :=
  history.countP fun
    | (.lifecycle 0, _) => true
    | _ => false

end CollectHistory

/-- None of the messages announces a version. -/
def Unannounced (network : List (WorkerId × NetworkMessage K V T)) : Prop :=
  ∀ addressed ∈ network, ∀ version, addressed.2 ≠ .upgrade version

namespace CollectSite

open CollectHistory

variable [DecidableEq K] (site : CollectSite K T)

structure Ongoing (whitelist : IndexSet K) (router : CollectRouter K V T)
    (history : CollectHistory K V T) : Prop where
  oldWorkerSet : router.oldWorkerSet = site.oldWorkerSet
  newWorkerSet : router.newWorkerSet = site.trigger.workers
  version : router.version = site.trigger.version
  listed : ∀ key ∈ router.whitelist, key ∈ whitelist
  current : ∀ collect, router.currentCollect = some collect →
    collect.key ∈ whitelist ∧ collect.key ∉ router.whitelist
  waiting : ∀ key ∈ router.whitelist, Waiting key history
  collecting : ∀ collect, router.currentCollect = some collect →
    Collecting collect.key history router.buffered
  unbuffered : router.currentCollect = none → router.buffered = []
  moved : ∀ key ∈ whitelist, key ∉ router.whitelist →
    router.isCollecting key = false →
    Moved (site.newTarget key) site.trigger.version key history
  unannounced : Unannounced history.network
  bounded : history.turns + router.whitelist.items.length ≤
    whitelist.items.length

/-- Every key has gone, and the new version was announced last. -/
structure Concluded (whitelist : IndexSet K) (history : CollectHistory K V T) :
    Prop where
  moved : ∀ key ∈ whitelist,
    Moved (site.newTarget key) site.trigger.version key history
  announced : ∃ before, Unannounced before ∧
    history.network =
      before ++ broadcast site.remotes (.upgrade site.trigger.version)

def Disciplined (whitelist : IndexSet K) (collection : Collection K V T) :
    Prop :=
  match collection.router with
  | .collect router => site.Ongoing whitelist router collection.history
  | .finished _ => site.Concluded whitelist collection.history
  | _ => False

structure Connected : Prop where
  oldTarget : ∀ key, site.partitioner key site.oldWorkerSet = site.thisWorker ∨
    site.partitioner key site.oldWorkerSet ∈ site.remotes
  newTarget : ∀ key, site.newTarget key = site.thisWorker ∨
    site.newTarget key ∈ site.remotes

variable {site} {whitelist : IndexSet K} {router : CollectRouter K V T}
  {history : CollectHistory K V T}

theorem start_ongoing :
    site.Ongoing whitelist (CollectRouter.new (V := V) whitelist
      site.oldWorkerSet site.trigger.workers site.trigger) [] where
  oldWorkerSet := rfl
  newWorkerSet := rfl
  version := rfl
  listed _ member := member
  current := nofun
  waiting _ _ := ⟨rfl, rfl⟩
  collecting := nofun
  unbuffered _ := rfl
  moved _ member absent := absurd member absent
  unannounced := nofun
  bounded := Nat.le_of_eq (Nat.zero_add _)

theorem sent_upgrade {key : K} {call : CollectCall K V T}
    {effects : Effects K V T} {version : Version} :
    sent key [(call, effects.append
      { network := broadcast site.remotes (.upgrade version) })] =
      sent key [(call, effects)] := by
  simp [sent, network, Effects.append, broadcast, NetworkMessage.key?,
    List.filter_eq_nil_iff]

theorem handed_upgrade {key : K} {call : CollectCall K V T}
    {effects : Effects K V T}
    {network : List (WorkerId × NetworkMessage K V T)} :
    handed key [(call, effects.append { network := network })] =
      handed key [(call, effects)] := by
  simp [handed, Effects.append]

omit [DecidableEq K] in
theorem turns_append (history : CollectHistory K V T) (clones : Nat)
    (effects : Effects K V T) :
    turns (history ++ [(.lifecycle clones, effects)]) ≤ history.turns + 1 := by
  cases clones <;> simp [turns, List.countP_append]

variable (site) in
/-- Nothing is under collection.  A lifecycle call with this number of clones
which has sent these messages is about to start with the next key. -/
structure Idle (whitelist : IndexSet K) (router : CollectRouter K V T)
    (history : CollectHistory K V T) (clones : Nat)
    (sending : List (WorkerId × NetworkMessage K V T)) : Prop where
  oldWorkerSet : router.oldWorkerSet = site.oldWorkerSet
  newWorkerSet : router.newWorkerSet = site.trigger.workers
  version : router.version = site.trigger.version
  idle : router.currentCollect = none
  unbuffered : router.buffered = []
  listed : ∀ key ∈ router.whitelist, key ∈ whitelist
  waiting : ∀ key ∈ router.whitelist, Waiting key history
  unsent : ∀ key ∈ router.whitelist,
    sent key [(.lifecycle clones, { network := sending })] = []
  moved : ∀ key ∈ whitelist, key ∉ router.whitelist →
    ∀ effects : Effects K V T,
      handed key [(.lifecycle clones, effects)] = [] →
      sent key [(.lifecycle clones, effects)] =
        sent key [(.lifecycle clones, { network := sending })] →
      Moved (site.newTarget key) site.trigger.version key
        (history ++ [(.lifecycle clones, effects)])
  unannounced : Unannounced (history.network ++ sending)
  bounded : history.turns + router.whitelist.items.length ≤
    whitelist.items.length

/-- Either the next key is collected from here on, or there is none and the
collection is concluded. -/
theorem Idle.emit {clones : Nat}
    {sending : List (WorkerId × NetworkMessage K V T)}
    (idle : site.Idle whitelist router history clones sending) :
    let emitted := router.setAndEmitCollect
    let concluded := emitted.1.conclude site.remotes
      { output := emitted.2, network := sending }
    site.Disciplined whitelist
      { router := concluded.1
        history := history ++ [(.lifecycle clones, concluded.2)] } := by
  cases popped : router.whitelist.pop with
  | none =>
      have nothing := IndexSet.pop_eq_none popped
      have isEmpty : router.whitelist.isEmpty = true :=
        (IndexSet.isEmpty_iff _).mpr nothing
      simp only [CollectRouter.setAndEmitCollect, idle.idle, popped,
        CollectRouter.conclude, Option.isNone_none, isEmpty, Bool.and_self,
        if_true, Disciplined]
      constructor
      · intro key member
        refine idle.moved key member (nothing key) _ ?_ ?_
        · rw [handed_upgrade]
          rfl
        · rw [sent_upgrade]
      · refine ⟨_, idle.unannounced, ?_⟩
        simp [network, Effects.append, idle.version]
  | some taken =>
      obtain ⟨first, rest⟩ := taken
      obtain ⟨members, fresh⟩ := IndexSet.pop_eq_some popped
      simp only [CollectRouter.setAndEmitCollect, idle.idle, popped,
        CollectRouter.conclude, Option.isNone_some, Bool.false_and,
        Bool.false_eq_true, if_false, Disciplined]
      have firstListed : first ∈ router.whitelist := (members first).mpr (.inr rfl)
      have same (key : K) :
          sent key [(.lifecycle clones, ⟨[.collect first], sending⟩)] =
            sent key [(.lifecycle clones, { network := sending })] := rfl
      exact {
        oldWorkerSet := idle.oldWorkerSet
        newWorkerSet := idle.newWorkerSet
        version := idle.version
        listed key member := idle.listed key ((members key).mpr (.inl member))
        current := by
          rintro collect ⟨⟩
          exact ⟨idle.listed first firstListed, fresh⟩
        waiting := by
          intro key member
          have other : key ≠ first := fun same => fresh (same ▸ member)
          have listed := (members key).mpr (.inl member)
          refine (idle.waiting key listed).append ?_ ?_
          · simp [handed, arrivals, Message.key?, Message.isCollect, other.symm]
          · rw [same, idle.unsent key listed]
        collecting := by
          rintro collect ⟨⟩
          rw [idle.unbuffered]
          refine (idle.waiting first firstListed).emit (.head _) ?_ ?_
          · simp [handed, Message.key?, Message.isCollect]
          · exact idle.unsent first firstListed
        unbuffered := nofun
        moved := by
          intro key member absent other
          have notFirst : key ≠ first := by
            rintro rfl
            simp [CollectRouter.isCollecting, Collect.new] at other
          have unlisted : key ∉ router.whitelist := fun listed =>
            ((members key).mp listed).elim absent notFirst
          refine idle.moved key member unlisted _ ?_ (same key)
          simp [handed, Message.key?, Message.isCollect, notFirst.symm]
        unannounced := by simpa [network] using idle.unannounced
        bounded := by
          have counted := turns_append history clones
            { output := [.collect first], network := sending }
          have length := IndexSet.length_pop popped
          have before := idle.bounded
          show turns _ + rest.items.length ≤ _
          omega }

omit site in
theorem isCollecting_eq (router : CollectRouter K V T) (key : K) :
    router.isCollecting key =
      decide (router.currentCollect.map Collect.key = some key) := by
  cases current : router.currentCollect <;>
    simp [CollectRouter.isCollecting, current]

theorem Ongoing.keep {event : CollectCall K V T} {effects : Effects K V T}
    {next : CollectRouter K V T} {added : List (DataMessage K V T)}
    (ongoing : site.Ongoing whitelist router history)
    (same : next.oldWorkerSet = router.oldWorkerSet ∧
      next.newWorkerSet = router.newWorkerSet ∧
      next.version = router.version ∧ next.whitelist = router.whitelist)
    (sameKey : next.currentCollect.map Collect.key =
      router.currentCollect.map Collect.key)
    (buffered : next.buffered = router.buffered ++ added)
    (unbuffered : router.currentCollect = none → added = [])
    (waiting : ∀ key ∈ router.whitelist,
      handed key [(event, effects)] =
          (arrivals key [(event, effects)]).map .data ∧
        sent key [(event, effects)] = [])
    (collecting : ∀ collect, router.currentCollect = some collect →
      handed collect.key [(event, effects)] = [] ∧
        sent collect.key [(event, effects)] = [] ∧
        arrivals collect.key [(event, effects)] = added)
    (moved : ∀ key ∈ whitelist, key ∉ router.whitelist →
      router.isCollecting key = false →
      handed key [(event, effects)] = [] ∧
        sent key [(event, effects)] =
          (arrivals key [(event, effects)]).map fun message =>
            (site.newTarget key,
              .data { content := message, version := site.trigger.version }))
    (unannounced : Unannounced effects.network)
    (noTurn : turns [(event, effects)] = 0) :
    site.Ongoing whitelist next (history ++ [(event, effects)]) := by
  obtain ⟨oldWorkerSet, newWorkerSet, version, sameList⟩ := same
  have current (collect : Collect K)
      (isCurrent : next.currentCollect = some collect) :
      ∃ before, router.currentCollect = some before ∧
        before.key = collect.key := by
    rw [isCurrent, Option.map_some] at sameKey
    exact Option.map_eq_some_iff.mp sameKey.symm
  exact {
    oldWorkerSet := oldWorkerSet.trans ongoing.oldWorkerSet
    newWorkerSet := newWorkerSet.trans ongoing.newWorkerSet
    version := version.trans ongoing.version
    listed := by
      rw [sameList]
      exact ongoing.listed
    current := by
      intro collect isCurrent
      obtain ⟨before, isBefore, sameKey⟩ := current collect isCurrent
      rw [← sameKey, sameList]
      exact ongoing.current before isBefore
    waiting := by
      rw [sameList]
      intro key listed
      exact (ongoing.waiting key listed).append (waiting key listed).1
        (waiting key listed).2
    collecting := by
      intro collect isCurrent
      obtain ⟨before, isBefore, sameKey⟩ := current collect isCurrent
      obtain ⟨unseen, unsent, arrived⟩ := collecting before isBefore
      rw [← sameKey, buffered, ← arrived]
      exact (ongoing.collecting before isBefore).append unseen unsent
    unbuffered := by
      intro noCurrent
      have noBefore : router.currentCollect = none := by
        rw [noCurrent, Option.map_none] at sameKey
        exact Option.map_eq_none_iff.mp sameKey.symm
      rw [buffered, ongoing.unbuffered noBefore, unbuffered noBefore]
      rfl
    moved := by
      intro key member unlisted notCurrent
      rw [sameList] at unlisted
      have notBefore : router.isCollecting key = false := by
        rw [isCollecting_eq, ← sameKey, ← isCollecting_eq, notCurrent]
      obtain ⟨unseen, followed⟩ := moved key member unlisted notBefore
      exact (ongoing.moved key member unlisted notBefore).append unseen followed
    unannounced := by
      intro addressed member
      simp only [network, List.flatMap_append, List.flatMap_singleton,
        List.mem_append] at member
      exact member.elim (ongoing.unannounced addressed)
        (unannounced addressed)
    bounded := by
      have before := ongoing.bounded
      rw [sameList]
      simp only [turns, List.countP_append] at before noTurn ⊢
      omega }


/-- What a record brings about is of no other key. -/
structure Carries (message : DataMessage K V T) (effects : Effects K V T) :
    Prop where
  output : ∀ sentOn ∈ effects.output, sentOn = .data message
  network : ∀ addressed ∈ effects.network, ∃ version,
    addressed.2 = .data { content := message, version := version }

theorem Carries.foreign {message : DataMessage K V T} {sender : WorkerId}
    {effects : Effects K V T} {key : K} (carries : Carries message effects)
    (foreign : message.key ≠ key) :
    arrivals key [(.routeMessage message sender, effects)] = [] ∧
      handed key [(.routeMessage message sender, effects)] = [] ∧
      sent key [(.routeMessage message sender, effects)] = [] := by
  refine ⟨by simp [arrivals, foreign], ?_, ?_⟩
  · simp only [handed, List.flatMap_singleton, List.filter_eq_nil_iff]
    intro sentOn member
    rw [carries.output sentOn member]
    simp [Message.key?, Message.isCollect, foreign]
  · simp only [sent, CollectHistory.network, List.flatMap_singleton,
      List.filter_eq_nil_iff]
    intro addressed member
    obtain ⟨version, isData⟩ := carries.network addressed member
    simp [isData, NetworkMessage.key?, foreign]

omit [DecidableEq K] in
theorem sendDataMessage_effects {distributor : Distributor K V T}
    {message : DataMessage K V T} {target thisWorker : WorkerId}
    {effects : Effects K V T}
    (sends : distributor.sendDataMessage message target thisWorker =
      .ok effects) :
    (target = thisWorker ∧ effects = { output := [.data message] }) ∨
      (target ≠ thisWorker ∧ effects = { network := [(target, .data
        { content := message, version := distributor.router.version })] }) := by
  unfold Distributor.sendDataMessage at sends
  split at sends
  next here => exact .inl ⟨here, (Except.ok.inj sends).symm⟩
  next away =>
    split at sends
    next => cases sends
    next => exact .inr ⟨away, (Except.ok.inj sends).symm⟩

theorem Ongoing.forward {message : DataMessage K V T} {sender target : WorkerId}
    {effects : Effects K V T}
    (ongoing : site.Ongoing whitelist router history)
    (sends : ({ router := .collect router
                remotes := site.remotes } : Distributor K V T).sendDataMessage
      message target site.thisWorker = .ok effects)
    (kept : message.key ∈ router.whitelist → target = site.thisWorker)
    (notCurrent : ∀ collect, router.currentCollect = some collect →
      message.key ≠ collect.key)
    (moved : message.key ∈ whitelist → message.key ∉ router.whitelist →
      target ≠ site.thisWorker ∧ target = site.newTarget message.key) :
    site.Ongoing whitelist router
      (history ++ [(.routeMessage message sender, effects)]) := by
  have sent_on := sendDataMessage_effects sends
  have carries : Carries message effects := by
    rcases sent_on with ⟨-, rfl⟩ | ⟨-, rfl⟩
    · exact ⟨by simp, by simp⟩
    · exact ⟨by simp, by simp⟩
  have noChange : router.buffered = router.buffered ++ [] :=
    (List.append_nil _).symm
  refine ongoing.keep ⟨rfl, rfl, rfl, rfl⟩ rfl noChange (fun _ => rfl)
    ?_ ?_ ?_ ?_ ?_
  · intro key listed
    by_cases same : message.key = key
    · subst same
      rcases sent_on with ⟨-, rfl⟩ | ⟨away, -⟩
      · simp [handed, arrivals, sent, network, Message.key?]
      · exact absurd (kept listed) away
    · obtain ⟨unarrived, unseen, unsent⟩ := carries.foreign same
      rw [unseen, unarrived]
      exact ⟨rfl, unsent⟩
  · intro collect isCurrent
    obtain ⟨unarrived, unseen, unsent⟩ :=
      carries.foreign (notCurrent collect isCurrent)
    exact ⟨unseen, unsent, unarrived⟩
  · intro key member unlisted _
    by_cases same : message.key = key
    · subst same
      obtain ⟨away, isTarget⟩ := moved member unlisted
      rcases sent_on with ⟨here, -⟩ | ⟨-, rfl⟩
      · exact absurd here away
      · simp [handed, arrivals, sent, network, NetworkMessage.key?, isTarget,
          MessageRouter.version, ongoing.version]
    · obtain ⟨unarrived, unseen, unsent⟩ := carries.foreign same
      rw [unsent, unarrived]
      exact ⟨unseen, rfl⟩
  · intro addressed member version isUpgrade
    obtain ⟨_, isData⟩ := carries.network addressed member
    exact absurd (isData.symm.trans isUpgrade) nofun
  · rfl

theorem Ongoing.buffer {message : DataMessage K V T} {sender : WorkerId}
    (ongoing : site.Ongoing whitelist router history)
    (unlisted : message.key ∉ router.whitelist)
    (current : router.isCollecting message.key = true) :
    site.Ongoing whitelist
      { router with buffered := router.buffered ++ [message] }
      (history ++ [(.routeMessage message sender, ({} : Effects K V T))]) := by
  have isCurrent : router.currentCollect.map Collect.key =
      some message.key := by
    simpa [isCollecting_eq] using current
  have nothing : Carries message {} := ⟨by simp, by simp⟩
  refine ongoing.keep ⟨rfl, rfl, rfl, rfl⟩ rfl rfl ?_ ?_ ?_ ?_ nofun rfl
  · intro noCurrent
    simp [noCurrent] at isCurrent
  · intro key listed
    have other : message.key ≠ key := fun same => unlisted (same ▸ listed)
    obtain ⟨unarrived, unseen, unsent⟩ := nothing.foreign other
    rw [unseen, unarrived]
    exact ⟨rfl, unsent⟩
  · intro collect found
    have same : collect.key = message.key := by simpa [found] using isCurrent
    simp [handed, sent, network, arrivals, same]
  · intro key _ _ notCurrent
    have other : message.key ≠ key := by
      rintro rfl
      simp [notCurrent] at current
    obtain ⟨unarrived, unseen, unsent⟩ := nothing.foreign other
    rw [unsent, unarrived]
    exact ⟨unseen, rfl⟩

theorem Ongoing.route {message : DataMessage K V T} {sender : WorkerId}
    {next : MessageRouter K V T} {effects : Effects K V T}
    (leaves : ∀ key ∈ whitelist, site.newTarget key ≠ site.thisWorker)
    (ongoing : site.Ongoing whitelist router history)
    (called : site.call router (.routeMessage message sender) =
      .ok (next, effects)) :
    site.Disciplined whitelist
      { router := next
        history := history ++ [(.routeMessage message sender, effects)] } := by
  have isTarget : site.partitioner message.key router.newWorkerSet =
      site.newTarget message.key := by rw [ongoing.newWorkerSet]; rfl
  simp only [call, CollectRouter.routeMessage, isTarget] at called
  have onward (target : WorkerId)
      (called : (match ({ router := .collect router
                          remotes := site.remotes } :
          Distributor K V T).sendDataMessage message target
            site.thisWorker with
        | .ok effects => Except.ok (MessageRouter.collect router, effects)
        | .error panic => .error panic) = .ok (next, effects))
      (kept : message.key ∈ router.whitelist → target = site.thisWorker)
      (notCurrent : ∀ collect, router.currentCollect = some collect →
        message.key ≠ collect.key)
      (moved : message.key ∈ whitelist → message.key ∉ router.whitelist →
        target ≠ site.thisWorker ∧ target = site.newTarget message.key) :
      site.Disciplined whitelist
        { router := next
          history :=
            history ++ [(.routeMessage message sender, effects)] } := by
    split at called
    next effects sends =>
      cases called
      exact ongoing.forward sends kept notCurrent moved
    next => cases called
  by_cases here : site.newTarget message.key = site.thisWorker
  · have stays : message.key ∉ whitelist := fun member => leaves _ member here
    have notCurrent (collect : Collect K)
        (isCurrent : router.currentCollect = some collect) :
        message.key ≠ collect.key := by
      intro same
      exact stays (same ▸ (ongoing.current collect isCurrent).1)
    have unlisted : message.key ∉ router.whitelist := fun listed =>
      stays (ongoing.listed _ listed)
    simp only [here, decide_true] at called
    by_cases fromOld :
        site.partitioner message.key router.oldWorkerSet = sender
    · simp only [if_pos fromOld] at called
      exact onward _ called (fun _ => rfl) notCurrent
        fun member => absurd member stays
    · simp only [if_neg fromOld] at called
      exact onward _ called (fun listed => absurd listed unlisted) notCurrent
        fun member => absurd member stays
  · simp only [here, decide_false] at called
    by_cases listed : message.key ∈ router.whitelist
    · simp only [listed, decide_true] at called
      refine onward _ called (fun _ => rfl) ?_ fun _ unlisted =>
        absurd listed unlisted
      intro collect isCurrent same
      exact (ongoing.current collect isCurrent).2 (same ▸ listed)
    · simp only [listed, decide_false] at called
      cases current : router.isCollecting message.key with
      | true =>
          simp only [current, Except.ok.injEq, Prod.mk.injEq] at called
          obtain ⟨rfl, rfl⟩ := called
          exact ongoing.buffer listed current
      | false =>
          simp only [current] at called
          refine onward _ called (fun wanted => absurd wanted listed) ?_
            fun _ _ => ⟨here, rfl⟩
          intro collect isCurrent same
          simp [CollectRouter.isCollecting, isCurrent, same] at current

omit site in
theorem key_of_mem_arrivals {key : K} {message : DataMessage K V T}
    {after : CollectHistory K V T} (member : message ∈ arrivals key after) :
    message.key = key := by
  obtain ⟨entry, -, isArrival⟩ := List.mem_filterMap.mp member
  split at isArrival
  · split at isArrival
    next same => rw [← Option.some.inj isArrival, same]
    next => cases isArrival
  · cases isArrival

theorem Ongoing.idle (ongoing : site.Ongoing whitelist router history)
    (noCurrent : router.currentCollect = none) (clones : Nat) :
    site.Idle whitelist router history clones [] where
  oldWorkerSet := ongoing.oldWorkerSet
  newWorkerSet := ongoing.newWorkerSet
  version := ongoing.version
  idle := noCurrent
  unbuffered := ongoing.unbuffered noCurrent
  listed := ongoing.listed
  waiting := ongoing.waiting
  unsent _ _ := rfl
  moved := by
    intro key member unlisted effects unseen unsent
    have notCurrent : router.isCollecting key = false := by
      simp [CollectRouter.isCollecting, noCurrent]
    exact (ongoing.moved key member unlisted notCurrent).append unseen unsent
  unannounced := by
    rw [List.append_nil]
    exact ongoing.unannounced
  bounded := ongoing.bounded

/-- What an unwrapped collect is sent as. -/
def released (site : CollectSite K T) (router : CollectRouter K V T)
    (collect : Collect K) : List (WorkerId × NetworkMessage K V T) :=
  (site.newTarget collect.key,
    .acquire { key := collect.key, collection := collect.collection }) ::
    router.buffered.map fun message =>
      (site.newTarget collect.key,
        .data { content := message, version := site.trigger.version })

theorem Ongoing.release {collect : Collect K}
    (ongoing : site.Ongoing whitelist router history)
    (isCurrent : router.currentCollect = some collect) (clones : Nat) :
    site.Idle whitelist
      { router with buffered := [], currentCollect := none } history clones
      (released site router collect) := by
  obtain ⟨member, unlisted⟩ := ongoing.current collect isCurrent
  have collecting := ongoing.collecting collect isCurrent
  have keys : ∀ message ∈ router.buffered, message.key = collect.key := by
    obtain ⟨after, -, -, isBuffered⟩ := collecting
    rw [← isBuffered]
    exact fun message arrived => key_of_mem_arrivals arrived
  have foreign (key : K) (other : key ≠ collect.key) :
      sent key [(CollectCall.lifecycle clones,
        (⟨[], released site router collect⟩ : Effects K V T))] = [] := by
    simp only [sent, network, List.flatMap_singleton, List.filter_eq_nil_iff,
      released, List.forall_mem_cons, List.forall_mem_map]
    refine ⟨by simp [NetworkMessage.key?, other.symm], ?_⟩
    intro message isBuffered
    simp [NetworkMessage.key?, keys message isBuffered, other.symm]
  have own : sent collect.key [(CollectCall.lifecycle clones,
      (⟨[], released site router collect⟩ : Effects K V T))] =
      released site router collect := by
    simp only [sent, network, List.flatMap_singleton, List.filter_eq_self,
      released, List.forall_mem_cons, List.forall_mem_map]
    refine ⟨by simp [NetworkMessage.key?], ?_⟩
    intro message isBuffered
    simp [NetworkMessage.key?, keys message isBuffered]
  exact {
    oldWorkerSet := ongoing.oldWorkerSet
    newWorkerSet := ongoing.newWorkerSet
    version := ongoing.version
    idle := rfl
    unbuffered := rfl
    listed := ongoing.listed
    waiting := ongoing.waiting
    unsent := by
      intro key listed
      exact foreign key fun same => unlisted (same ▸ listed)
    moved := by
      intro key member absent effects unseen isSent
      by_cases same : key = collect.key
      · subst same
        exact collecting.release unseen rfl (isSent.trans own)
      · have notCurrent : router.isCollecting key = false := by
          simp [CollectRouter.isCollecting, isCurrent, Ne.symm same]
        exact (ongoing.moved key member absent notCurrent).append unseen
          (isSent.trans (foreign key same))
    unannounced := by
      intro addressed member version
      rcases List.mem_append.mp member with before | now
      · exact ongoing.unannounced addressed before version
      · simp only [released, List.mem_cons, List.mem_map] at now
        rcases now with rfl | ⟨message, -, rfl⟩
        · nofun
        · nofun
    bounded := ongoing.bounded }

theorem Ongoing.silent {event : CollectCall K V T}
    {next : CollectRouter K V T}
    (ongoing : site.Ongoing whitelist router history)
    (same : next.oldWorkerSet = router.oldWorkerSet ∧
      next.newWorkerSet = router.newWorkerSet ∧
      next.version = router.version ∧ next.whitelist = router.whitelist)
    (sameKey : next.currentCollect.map Collect.key =
      router.currentCollect.map Collect.key)
    (buffered : next.buffered = router.buffered)
    (unarrived : ∀ key, arrivals key
      [(event, ({} : Effects K V T))] = [])
    (noTurn : turns [(event, ({} : Effects K V T))] = 0) :
    site.Ongoing whitelist next
      (history ++ [(event, ({} : Effects K V T))]) := by
  have noChange : next.buffered = router.buffered ++ [] :=
    buffered.trans (List.append_nil _).symm
  refine ongoing.keep same sameKey noChange (fun _ => rfl) ?_ ?_ ?_ nofun noTurn
  · intro key _
    rw [unarrived key]
    exact ⟨rfl, rfl⟩
  · intro collect _
    exact ⟨rfl, rfl, unarrived _⟩
  · intro key _ _ _
    rw [unarrived key]
    exact ⟨rfl, rfl⟩

theorem Ongoing.lifecycle {clones : Nat} {next : MessageRouter K V T}
    {effects : Effects K V T}
    (ongoing : site.Ongoing whitelist router history)
    (called : site.call router (.lifecycle clones) = .ok (next, effects)) :
    site.Disciplined whitelist
      { router := next
        history := history ++ [(.lifecycle clones, effects)] } := by
  simp only [call, CollectRouter.lifecycle] at called
  cases current : router.currentCollect with
  | none =>
      simp only [current, Except.ok.injEq] at called
      have emitted := (ongoing.idle current clones).emit
      simp only [called] at emitted
      exact emitted
  | some collect =>
      simp only [current, Collect.tryIntoAcquire] at called
      by_cases unwrapped : clones = 0
      · simp only [if_pos unwrapped] at called
        split at called
        next => cases called
        next client =>
          simp only [Except.ok.injEq] at called
          have emitted := (ongoing.release current clones).emit
          simp only [released, newTarget, ← ongoing.newWorkerSet,
            ← ongoing.version, called] at emitted
          exact emitted
      · simp only [if_neg unwrapped, CollectRouter.conclude, Option.isNone_some,
          Bool.false_and, Bool.false_eq_true, if_false, Except.ok.injEq,
          Prod.mk.injEq] at called
        obtain ⟨rfl, rfl⟩ := called
        refine ongoing.silent ⟨rfl, rfl, rfl, rfl⟩ ?_ rfl (fun _ => rfl) ?_
        · rw [current]
        · obtain ⟨left, rfl⟩ := Nat.exists_eq_succ_of_ne_zero unwrapped
          rfl

theorem step_disciplined {collection next : Collection K V T}
    {event : CollectCall K V T}
    (leaves : ∀ key ∈ whitelist, site.newTarget key ≠ site.thisWorker)
    (disciplined : site.Disciplined whitelist collection)
    (stepped : site.step collection event = .ok next) :
    site.Disciplined whitelist next := by
  obtain ⟨router, history⟩ := collection
  cases router with
  | normal | interrogate => exact disciplined.elim
  | finished =>
      rw [← Except.ok.inj stepped]
      exact disciplined
  | collect router =>
      have ongoing : site.Ongoing whitelist router history := disciplined
      simp only [step] at stepped
      split at stepped
      next nextRouter effects called =>
        rw [← Except.ok.inj stepped]
        cases event with
        | routeMessage message sender => exact ongoing.route leaves called
        | lifecycle clones => exact ongoing.lifecycle called
        | addState operatorId state =>
            simp only [call, Except.ok.injEq, Prod.mk.injEq] at called
            obtain ⟨rfl, rfl⟩ := called
            refine ongoing.silent ⟨rfl, rfl, rfl, rfl⟩ ?_ rfl
              (fun _ => rfl) rfl
            simp [Function.comp_def]
      next => cases stepped

/-! ### No call fails -/

omit [DecidableEq K] in
theorem sendDataMessage_ok {distributor : Distributor K V T}
    {message : DataMessage K V T} {target thisWorker : WorkerId}
    (found : target = thisWorker ∨ target ∈ distributor.remotes) :
    ∃ effects, distributor.sendDataMessage message target thisWorker =
      .ok effects := by
  unfold Distributor.sendDataMessage
  split
  next => exact ⟨_, rfl⟩
  next away =>
    obtain ⟨state, isState⟩ :=
      IndexMap.exists_get?_of_mem (found.resolve_left away)
    simp [isState]

theorem Ongoing.routes_to {message kept : DataMessage K V T}
    {sender target : WorkerId} (connected : site.Connected)
    (ongoing : site.Ongoing whitelist router history)
    (routed : (router.routeMessage message site.partitioner site.thisWorker
      sender).2 = some (kept, target)) :
    target = site.thisWorker ∨ target ∈ site.remotes := by
  have newTarget := connected.newTarget message.key
  have oldTarget := connected.oldTarget message.key
  rw [CollectSite.newTarget, ← ongoing.newWorkerSet] at newTarget
  rw [← ongoing.oldWorkerSet] at oldTarget
  simp only [CollectRouter.routeMessage] at routed
  split at routed
  · cases routed
    exact .inl rfl
  · cases routed
  · cases routed
    exact newTarget
  · split at routed
    · cases routed
      exact .inl rfl
    · cases routed
      exact oldTarget

theorem Ongoing.call_ok (connected : site.Connected)
    (leaves : ∀ key ∈ whitelist, site.newTarget key ≠ site.thisWorker)
    (ongoing : site.Ongoing whitelist router history)
    (event : CollectCall K V T) :
    ∃ result, site.call router event = .ok result := by
  cases event with
  | addState => exact ⟨_, rfl⟩
  | routeMessage message sender =>
      simp only [call]
      split
      next => exact ⟨_, rfl⟩
      next kept target routed =>
        have known := ongoing.routes_to connected routed
        generalize (router.routeMessage message site.partitioner
          site.thisWorker sender).1 = next
        obtain ⟨effects, sends⟩ : ∃ effects,
            ({ router := .collect next
               remotes := site.remotes } : Distributor K V T).sendDataMessage
              kept target site.thisWorker = .ok effects :=
          sendDataMessage_ok known
        exact ⟨_, by rw [sends]⟩
  | lifecycle clones =>
      simp only [call, CollectRouter.lifecycle]
      cases current : router.currentCollect with
      | none => exact ⟨_, rfl⟩
      | some collect =>
          simp only [Collect.tryIntoAcquire]
          by_cases unwrapped : clones = 0
          · have found := (connected.newTarget collect.key).resolve_left
              (leaves _ (ongoing.current collect current).1)
            rw [newTarget, ← ongoing.newWorkerSet] at found
            obtain ⟨state, isState⟩ := IndexMap.exists_get?_of_mem found
            simp [unwrapped, isState]
          · simp [unwrapped]

theorem step_ok {collection : Collection K V T} (connected : site.Connected)
    (leaves : ∀ key ∈ whitelist, site.newTarget key ≠ site.thisWorker)
    (disciplined : site.Disciplined whitelist collection)
    (event : CollectCall K V T) :
    ∃ next, site.step collection event = .ok next := by
  obtain ⟨router, history⟩ := collection
  cases router with
  | normal | interrogate => exact disciplined.elim
  | finished => exact ⟨_, rfl⟩
  | collect router =>
      have ongoing : site.Ongoing whitelist router history := disciplined
      obtain ⟨result, called⟩ := ongoing.call_ok connected leaves event
      simp [step, called]

theorem Ongoing.phase (ongoing : site.Ongoing whitelist router history)
    {key : K} (member : key ∈ whitelist) :
    Waiting key history ∨ (∃ buffered, Collecting key history buffered) ∨
      Moved (site.newTarget key) site.trigger.version key history := by
  by_cases listed : key ∈ router.whitelist
  · exact .inl (ongoing.waiting key listed)
  · cases current : router.isCollecting key with
    | false => exact .inr (.inr (ongoing.moved key member listed current))
    | true =>
        rw [isCollecting_eq, decide_eq_true_iff] at current
        obtain ⟨collect, isCurrent, rfl⟩ := Option.map_eq_some_iff.mp current
        exact .inr (.inl ⟨_, ongoing.collecting collect isCurrent⟩)

/-- However records, lifecycle calls and states come: the calls do not fail,
each key waits, is being collected or has moved in order, and once there were
more turns than keys the collection is concluded. -/
theorem collection_disciplined (site : CollectSite K T)
    (whitelist : IndexSet K) (connected : site.Connected)
    (leaves : ∀ key ∈ whitelist, site.newTarget key ≠ site.thisWorker)
    {collection : Collection K V T}
    (run : Reaches site.step (fun _ _ => True) (site.start whitelist)
      collection) :
    (∀ event, ∃ next, site.step collection event = .ok next) ∧
    (∀ key ∈ whitelist, Waiting key collection.history ∨
      (∃ buffered, Collecting key collection.history buffered) ∨
      Moved (site.newTarget key) site.trigger.version key
        collection.history) ∧
    ((∃ router, collection.router = .collect router) ∧
        Unannounced collection.history.network ∧
        collection.history.turns ≤ whitelist.items.length ∨
      (∃ router, collection.router = .finished router) ∧
        site.Concluded whitelist collection.history) := by
  have initial : site.Disciplined whitelist
      (site.start whitelist : Collection K V T) := start_ongoing
  have disciplined : site.Disciplined whitelist collection :=
    run.invariant (site.Disciplined whitelist) initial
      fun _ _ _ _ disciplined _ => step_disciplined leaves disciplined
  refine ⟨step_ok connected leaves disciplined, ?_⟩
  obtain ⟨router, history⟩ := collection
  cases router with
  | normal | interrogate => exact disciplined.elim
  | finished router =>
      have concluded : site.Concluded whitelist history := disciplined
      exact ⟨fun key member => .inr (.inr (concluded.moved key member)),
        .inr ⟨⟨router, rfl⟩, concluded⟩⟩
  | collect router =>
      have ongoing : site.Ongoing whitelist router history := disciplined
      exact ⟨fun key member => ongoing.phase member,
        .inl ⟨⟨router, rfl⟩, ongoing.unannounced,
          Nat.le_of_add_right_le ongoing.bounded⟩⟩

def handover : CollectSite Nat Unit where
  partitioner _ workers := if 0 ∈ workers then 0 else 1
  thisWorker := 0
  remotes := Remotes.ofWorkers (IndexSet.ofList [1])
  oldWorkerSet := IndexSet.ofList [0]
  trigger := ⟨IndexSet.ofList [1], 1⟩

/-- The second record of key 7 arrives while the key is collected. -/
def handoverCalls : List (CollectCall Nat Nat Unit) :=
  [.routeMessage ⟨7, 70, ()⟩ 0, .lifecycle 0, .routeMessage ⟨7, 71, ()⟩ 0,
    .lifecycle 1, .lifecycle 0]

theorem handover_connected : handover.Connected where
  oldTarget _ := .inl rfl
  newTarget _ := .inr (show 1 ∈ handover.remotes by decide)

theorem handover_concluded :
    (∀ key ∈ IndexSet.ofList [7],
      handover.newTarget key ≠ handover.thisWorker) ∧
    Reaches handover.step (fun _ _ => True)
      (handover.start (IndexSet.ofList [7]))
      (replay handover.step (handover.start (IndexSet.ofList [7]))
        handoverCalls) ∧
    handover.Concluded (IndexSet.ofList [7])
      (replay handover.step (handover.start (IndexSet.ofList [7]))
        handoverCalls).history := by
  have leaves : ∀ key ∈ IndexSet.ofList [7],
      handover.newTarget key ≠ handover.thisWorker := by decide
  have run : Reaches handover.step (fun _ _ => True)
      (handover.start (IndexSet.ofList [7]))
      (replay handover.step (handover.start (IndexSet.ofList [7]))
        handoverCalls) :=
    Follows.reaches handoverCalls .refl (by decide)
  obtain ⟨-, -, ⟨-, -, bounded⟩ | ⟨-, concluded⟩⟩ :=
    collection_disciplined handover _ handover_connected leaves run
  · exact absurd bounded (by decide)
  · exact ⟨leaves, run, concluded⟩

end CollectSite

end Malstrom.Keyed
