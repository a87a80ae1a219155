import Mathlib.Algebra.Group.Nat.Defs
import Malstrom.Types

namespace Malstrom.Runtime

open Data

/-! Communication between threads: a pair of crossed channels for each two
workers and each operator, which is handed out again on every connect. -/

/-- `WorkerId::MAX`, by which the coordinator is addressed. -/
def coordinatorId : WorkerId := 2 ^ 64 - 1

/-- A worker of the runtime, which numbers them from 0 and counts them in 64
bits. -/
@[ext] structure ThreadWorker where
  id : WorkerId
  below : id < coordinatorId
  deriving DecidableEq

inductive Endpoint where
  | operatorToOperator (thisWorker toWorker : ThreadWorker)
      (operator : OperatorId)
  | workerToCoordinator (thisWorker : ThreadWorker)
  | coordinatorToWorker (worker : ThreadWorker)
  deriving DecidableEq

structure ConnectionKey where
  workerLow : WorkerId
  workerHigh : WorkerId
  operator : OperatorId
  deriving DecidableEq

/-- The same key no matter in which direction the connection is supplied. -/
def ConnectionKey.new (workerA workerB : WorkerId) (operator : OperatorId) :
    ConnectionKey :=
  ⟨min workerA workerB, max workerA workerB, operator⟩

/-- The sending end of one channel and the receiving end of another; channels
are numbered. -/
structure ChannelTransport where
  sender : Nat
  receiver : Nat
  deriving DecidableEq

structure ChannelTransportContainer where
  toLow : ChannelTransport
  toHigh : ChannelTransport
  deriving DecidableEq

/-- A message with the endpoint which sent it; only the content is sent. -/
structure Letter where
  sender : Endpoint
  content : Bytes
  deriving DecidableEq

inductive TransportError where
  | sendError
  deriving DecidableEq

namespace Endpoint

def toWorker : Endpoint → WorkerId
  | .operatorToOperator _ toWorker _ => toWorker.id
  | .workerToCoordinator _ => coordinatorId
  | .coordinatorToWorker worker => worker.id

def fromWorker : Endpoint → WorkerId
  | .operatorToOperator thisWorker _ _ => thisWorker.id
  | .workerToCoordinator thisWorker => thisWorker.id
  | .coordinatorToWorker _ => coordinatorId

def operator : Endpoint → OperatorId
  | .operatorToOperator _ _ operator => operator
  | .workerToCoordinator _ | .coordinatorToWorker _ => 0

def key (endpoint : Endpoint) : ConnectionKey :=
  .new endpoint.toWorker endpoint.fromWorker endpoint.operator

def counterpart : Endpoint → Endpoint
  | .operatorToOperator thisWorker toWorker operator =>
      .operatorToOperator toWorker thisWorker operator
  | .workerToCoordinator thisWorker => .coordinatorToWorker thisWorker
  | .coordinatorToWorker worker => .workerToCoordinator worker

/-- The client is given the transport to the lower worker. -/
def isLow (endpoint : Endpoint) : Bool :=
  decide (endpoint.toWorker < endpoint.fromWorker)

end Endpoint

/-- The two channels `first` and `first + 1`, crossed. -/
def newTransportPair (first : Nat) : ChannelTransportContainer :=
  { toLow := { sender := first, receiver := first + 1 }
    toHigh := { sender := first + 1, receiver := first } }

def ChannelTransportContainer.transport
    (container : ChannelTransportContainer) (isLow : Bool) :
    ChannelTransport :=
  if isLow then container.toLow else container.toHigh

structure Network where
  shared : IndexMap ConnectionKey ChannelTransportContainer
  channels : Nat → List Letter
  /-- The channels below this one have been made. -/
  nextChannel : Nat
  /-- The clients which have not been dropped. -/
  clients : IndexMap Endpoint ChannelTransport
  /-- Everything which clients of an endpoint have sent so far. -/
  sent : Endpoint → List Letter
  /-- Everything which clients of an endpoint have received so far. -/
  received : Endpoint → List Letter

inductive Network.Event where
  /-- A client which the endpoint still has is dropped. -/
  | connect (endpoint : Endpoint)
  | drop (endpoint : Endpoint)
  | send (endpoint : Endpoint) (content : Bytes)
  | recv (endpoint : Endpoint)

namespace Network

def new : Network :=
  { shared := .empty, channels := fun _ => [], nextChannel := 0
    clients := .empty, sent := fun _ => [], received := fun _ => [] }

/-- The container of a key, which is made if there is none. -/
def containerFor (network : Network) (key : ConnectionKey) :
    ChannelTransportContainer × Network :=
  match network.shared.get? key with
  | some container => (container, network)
  | none =>
      let container := newTransportPair network.nextChannel
      (container, { network with
        shared := network.shared.insert key container
        nextChannel := network.nextChannel + 2 })

def connect (network : Network) (endpoint : Endpoint) : Network :=
  let found := network.containerFor endpoint.key
  { found.2 with
    clients := found.2.clients.insert endpoint
      (found.1.transport endpoint.isLow) }

def drop (network : Network) (endpoint : Endpoint) : Network :=
  { network with clients := network.clients.swapRemove endpoint }

def hasReceiver (network : Network) (channel : Nat) : Bool :=
  (network.shared.values.any fun container =>
    decide (container.toLow.receiver = channel ∨
      container.toHigh.receiver = channel)) ||
  network.clients.values.any fun client => decide (client.receiver = channel)

def send (network : Network) (endpoint : Endpoint) (content : Bytes) :
    Except TransportError Network :=
  match network.clients.get? endpoint with
  | none => .ok network
  | some client =>
      if network.hasReceiver client.sender then
        let letter := ⟨endpoint, content⟩
        .ok { network with
          channels := Function.update network.channels client.sender
            (network.channels client.sender ++ [letter])
          sent := Function.update network.sent endpoint
            (network.sent endpoint ++ [letter]) }
      else .error .sendError

/-- Nothing is received from an empty channel, be it disconnected or not. -/
def recv (network : Network) (endpoint : Endpoint) : Network :=
  match network.clients.get? endpoint with
  | none => network
  | some client =>
      match network.channels client.receiver with
      | [] => network
      | letter :: rest =>
          { network with
            channels := Function.update network.channels client.receiver rest
            received := Function.update network.received endpoint
              (network.received endpoint ++ [letter]) }

def step (network : Network) : Event → Except TransportError Network
  | .connect endpoint => .ok (network.connect endpoint)
  | .drop endpoint => .ok (network.drop endpoint)
  | .send endpoint content => network.send endpoint content
  | .recv endpoint => .ok (network.recv endpoint)

def transport? (network : Network) (endpoint : Endpoint) :
    Option ChannelTransport :=
  (network.shared.get? endpoint.key).map fun container =>
    container.transport endpoint.isLow

end Network

namespace Endpoint

variable {endpoint other : Endpoint}

@[simp] theorem counterpart_counterpart (endpoint : Endpoint) :
    endpoint.counterpart.counterpart = endpoint := by
  cases endpoint <;> rfl

@[simp] theorem toWorker_counterpart (endpoint : Endpoint) :
    endpoint.counterpart.toWorker = endpoint.fromWorker := by
  cases endpoint <;> rfl

@[simp] theorem fromWorker_counterpart (endpoint : Endpoint) :
    endpoint.counterpart.fromWorker = endpoint.toWorker := by
  cases endpoint <;> rfl

@[simp] theorem operator_counterpart (endpoint : Endpoint) :
    endpoint.counterpart.operator = endpoint.operator := by
  cases endpoint <;> rfl

@[simp] theorem key_counterpart (endpoint : Endpoint) :
    endpoint.counterpart.key = endpoint.key := by
  simp [key, ConnectionKey.new, min_comm, max_comm]

/-- A worker is never taken for the coordinator. -/
theorem eq_of_ends (sameTo : endpoint.toWorker = other.toWorker)
    (sameFrom : endpoint.fromWorker = other.fromWorker)
    (sameOperator : endpoint.operator = other.operator) : other = endpoint := by
  cases endpoint with
  | operatorToOperator thisWorker toWorker operator =>
      cases other with
      | operatorToOperator otherThis otherTo otherOperator =>
          cases sameOperator
          rw [ThreadWorker.ext sameTo, ThreadWorker.ext sameFrom]
      | workerToCoordinator worker => exact absurd sameTo toWorker.below.ne
      | coordinatorToWorker worker => exact absurd sameFrom thisWorker.below.ne
  | workerToCoordinator thisWorker =>
      cases other with
      | operatorToOperator otherThis otherTo otherOperator =>
          exact absurd sameTo.symm otherTo.below.ne
      | workerToCoordinator worker => rw [ThreadWorker.ext sameFrom]
      | coordinatorToWorker worker => exact absurd sameTo.symm worker.below.ne
  | coordinatorToWorker thisWorker =>
      cases other with
      | operatorToOperator otherThis otherTo otherOperator =>
          exact absurd sameFrom.symm otherThis.below.ne
      | workerToCoordinator worker => exact absurd sameFrom.symm worker.below.ne
      | coordinatorToWorker worker => rw [ThreadWorker.ext sameTo]

/-- A key belongs to a client and to the one at the other end. -/
theorem eq_or_counterpart (sameKey : endpoint.key = other.key) :
    other = endpoint ∨ other = endpoint.counterpart := by
  have ends {a b c d : Nat} (low : min a b = min c d)
      (high : max a b = max c d) : a = c ∧ b = d ∨ b = c ∧ a = d := by
    omega
  simp only [key, ConnectionKey.new, ConnectionKey.mk.injEq] at sameKey
  obtain ⟨low, high, sameOperator⟩ := sameKey
  rcases ends low high with ⟨sameTo, sameFrom⟩ | ⟨crossedTo, crossedFrom⟩
  · exact .inl (eq_of_ends sameTo sameFrom sameOperator)
  · refine .inr (eq_of_ends ?_ ?_ ?_)
    · rw [toWorker_counterpart, crossedTo]
    · rw [fromWorker_counterpart, crossedFrom]
    · rw [operator_counterpart, sameOperator]

/-- Only a client which connects a worker to itself has the side of the other
end. -/
theorem counterpart_of_isLow
    (sameSide : endpoint.counterpart.isLow = endpoint.isLow) :
    endpoint.counterpart = endpoint := by
  simp only [isLow, toWorker_counterpart, fromWorker_counterpart,
    decide_eq_decide] at sameSide
  have same : endpoint.toWorker = endpoint.fromWorker := by
    apply le_antisymm
    · exact not_lt.mp fun less => lt_asymm less (sameSide.mp less)
    · exact not_lt.mp fun less => lt_asymm less (sameSide.mpr less)
  apply eq_of_ends
  · rw [toWorker_counterpart, same]
  · rw [fromWorker_counterpart, same]
  · rw [operator_counterpart]

end Endpoint

namespace Network

variable {network : Network}

/-! ### The channels of a client -/

/-- The containers are made of channels of their own, and a client has the
transport a connect gives. -/
structure Wired (network : Network) : Prop where
  paired : ∀ key container, network.shared.get? key = some container →
    ∃ pair, container = newTransportPair (2 * pair) ∧
      2 * pair + 1 < network.nextChannel
  apart : ∀ key other container, network.shared.get? key = some container →
    network.shared.get? other = some container → key = other
  even : ∃ pairs, network.nextChannel = 2 * pairs
  client : ∀ endpoint client, network.clients.get? endpoint = some client →
    network.transport? endpoint = some client

theorem transport?_eq_some {endpoint : Endpoint} {client : ChannelTransport} :
    network.transport? endpoint = some client ↔
      ∃ container, network.shared.get? endpoint.key = some container ∧
        container.transport endpoint.isLow = client := by
  simp [transport?]

theorem Wired.below (wired : network.Wired) {endpoint : Endpoint}
    {client : ChannelTransport}
    (found : network.transport? endpoint = some client) :
    client.sender < network.nextChannel := by
  obtain ⟨container, isContainer, rfl⟩ := transport?_eq_some.mp found
  obtain ⟨pair, rfl, below⟩ := wired.paired _ _ isContainer
  cases endpoint.isLow <;>
    simp only [ChannelTransportContainer.transport, newTransportPair, if_true,
      Bool.false_eq_true, if_false] <;>
    omega

/-- Clients with a channel in common have one container. -/
theorem Wired.ends (wired : network.Wired) {endpoint other : Endpoint}
    {client otherClient : ChannelTransport}
    (found : network.transport? endpoint = some client)
    (otherFound : network.transport? other = some otherClient) :
    (client.sender = otherClient.sender →
      endpoint.key = other.key ∧ endpoint.isLow = other.isLow) ∧
    (client.receiver = otherClient.sender →
      endpoint.key = other.key ∧ endpoint.isLow ≠ other.isLow) := by
  obtain ⟨container, isContainer, rfl⟩ := transport?_eq_some.mp found
  obtain ⟨otherContainer, isOther, rfl⟩ := transport?_eq_some.mp otherFound
  obtain ⟨pair, rfl, -⟩ := wired.paired _ _ isContainer
  obtain ⟨otherPair, rfl, -⟩ := wired.paired _ _ isOther
  have sameKey (same : pair = otherPair) : endpoint.key = other.key := by
    subst same
    exact wired.apart _ _ _ isContainer isOther
  cases endpoint.isLow <;> cases other.isLow <;>
    simp only [ChannelTransportContainer.transport, newTransportPair, if_true,
      Bool.false_eq_true, if_false, ne_eq, reduceCtorEq, not_true_eq_false,
      not_false_iff, and_true, and_false] <;>
    refine ⟨fun same => ?_, fun same => ?_⟩ <;>
    first | exact sameKey (by omega) | omega

/-- No two endpoints send into one channel. -/
theorem Wired.eq_of_sender (wired : network.Wired) {endpoint other : Endpoint}
    {client otherClient : ChannelTransport}
    (found : network.transport? endpoint = some client)
    (otherFound : network.transport? other = some otherClient)
    (same : client.sender = otherClient.sender) : other = endpoint := by
  obtain ⟨sameKey, sameSide⟩ := (wired.ends found otherFound).1 same
  rcases Endpoint.eq_or_counterpart sameKey with rfl | rfl
  · rfl
  · exact Endpoint.counterpart_of_isLow sameSide.symm

theorem Wired.eq_counterpart (wired : network.Wired)
    {endpoint other : Endpoint} {client otherClient : ChannelTransport}
    (found : network.transport? endpoint = some client)
    (otherFound : network.transport? other = some otherClient)
    (same : client.receiver = otherClient.sender) :
    other = endpoint.counterpart ∧ other ≠ endpoint := by
  obtain ⟨sameKey, otherSide⟩ := (wired.ends found otherFound).2 same
  have different : other ≠ endpoint := fun equal => otherSide (equal ▸ rfl)
  exact ⟨(Endpoint.eq_or_counterpart sameKey).resolve_left different, different⟩

theorem Wired.hasReceiver (wired : network.Wired) {endpoint : Endpoint}
    {client : ChannelTransport}
    (found : network.transport? endpoint = some client) :
    network.hasReceiver client.sender = true := by
  obtain ⟨container, isContainer, rfl⟩ := transport?_eq_some.mp found
  have member : container ∈ network.shared.values :=
    List.mem_map_of_mem (IndexMap.get?_eq_some.mp isContainer)
  obtain ⟨pair, rfl, -⟩ := wired.paired _ _ isContainer
  apply Bool.or_eq_true_iff.mpr
  refine .inl (List.any_eq_true.mpr ⟨_, member, ?_⟩)
  cases endpoint.isLow <;>
    simp [ChannelTransportContainer.transport, newTransportPair]

/-! ### What a call does to the messages in flight -/

/-- What an endpoint has sent and the other end has not received. -/
def inFlight (network : Network) (endpoint : Endpoint) : List Letter :=
  (network.transport? endpoint).elim [] fun client =>
    network.channels client.sender

/-- A channel which nobody sends into is empty. -/
def Silent (network : Network) : Prop :=
  ∀ channel, (∀ endpoint client,
    network.transport? endpoint = some client → client.sender ≠ channel) →
      network.channels channel = []

theorem inFlight_of_transport {endpoint : Endpoint} {client : ChannelTransport}
    (found : network.transport? endpoint = some client) :
    network.inFlight endpoint = network.channels client.sender := by
  rw [inFlight, found]
  rfl

/-- Making a container changes nothing that anyone can see. -/
theorem containerFor_spec (wired : network.Wired) (silent : network.Silent)
    (key : ConnectionKey) :
    let made := network.containerFor key
    made.2.shared.get? key = some made.1 ∧ made.2.Wired ∧ made.2.Silent ∧
      made.2.inFlight = network.inFlight ∧
      made.2.sent = network.sent ∧ made.2.received = network.received := by
  unfold containerFor
  cases found : network.shared.get? key with
  | some container => exact ⟨found, wired, silent, rfl, rfl, rfl⟩
  | none =>
      obtain ⟨pairs, isNext⟩ := wired.even
      let made : Network := { network with
        shared := network.shared.insert key
          (newTransportPair network.nextChannel)
        nextChannel := network.nextChannel + 2 }
      have old {endpoint : Endpoint} {client : ChannelTransport}
          (isOld : network.transport? endpoint = some client) :
          made.transport? endpoint = some client := by
        obtain ⟨container, isContainer, isClient⟩ :=
          transport?_eq_some.mp isOld
        have different : endpoint.key ≠ key := by
          rintro rfl
          simp [found] at isContainer
        refine transport?_eq_some.mpr ⟨container, ?_, isClient⟩
        rw [IndexMap.get?_insert_of_ne _ _ different]
        exact isContainer
      have new {endpoint : Endpoint} {client : ChannelTransport}
          (isNew : made.transport? endpoint = some client) :
          network.transport? endpoint = some client ∨
            network.nextChannel ≤ client.sender := by
        obtain ⟨container, isContainer, rfl⟩ := transport?_eq_some.mp isNew
        rw [IndexMap.get?_insert] at isContainer
        split at isContainer
        · cases isContainer
          right
          cases endpoint.isLow <;>
            simp [ChannelTransportContainer.transport, newTransportPair]
        · exact .inl (transport?_eq_some.mpr ⟨container, isContainer, rfl⟩)
      have fresh (other : ConnectionKey) : network.shared.get? other ≠
          some (newTransportPair network.nextChannel) := by
        intro isOther
        obtain ⟨pair, same, below⟩ := wired.paired _ _ isOther
        have equal : network.nextChannel = 2 * pair :=
          congrArg (fun container => container.toLow.sender) same
        omega
      refine ⟨IndexMap.get?_insert_self _ _ _, ?_, ?_, ?_, rfl, rfl⟩
      · refine ⟨?_, ?_, ⟨pairs + 1, ?_⟩, fun endpoint client held =>
          old (wired.client endpoint client held)⟩
        · intro other container isContainer
          rw [IndexMap.get?_insert] at isContainer
          split at isContainer
          · cases isContainer
            refine ⟨pairs, by rw [isNext], ?_⟩
            simp only
            omega
          · obtain ⟨pair, isPair, below⟩ := wired.paired _ _ isContainer
            exact ⟨pair, isPair, Nat.lt_add_right 2 below⟩
        · intro left right container isLeft isRight
          rw [IndexMap.get?_insert] at isLeft isRight
          split at isLeft
          next isKey =>
            cases isLeft
            split at isRight
            next alsoKey => exact isKey.trans alsoKey.symm
            next => exact absurd isRight (fresh right)
          next =>
            split at isRight
            next =>
              cases isRight
              exact absurd isLeft (fresh left)
            next => exact wired.apart _ _ _ isLeft isRight
        · simp only
          omega
      · intro channel unsent
        exact silent channel fun endpoint client isOld =>
          unsent endpoint client (old isOld)
      · funext endpoint
        cases isOld : network.transport? endpoint with
        | some client =>
            rw [inFlight_of_transport isOld]
            exact inFlight_of_transport (old isOld)
        | none =>
            have none : network.inFlight endpoint = [] := by
              rw [inFlight, isOld]
              rfl
            rw [none]
            cases isNew : made.transport? endpoint with
            | none =>
                show made.inFlight endpoint = []
                rw [inFlight, isNew]
                rfl
            | some client =>
                have above := (new isNew).resolve_left (by simp [isOld])
                have empty : network.channels client.sender = [] :=
                  silent client.sender fun other otherClient isOther =>
                    ((wired.below isOther).trans_le above).ne
                exact (inFlight_of_transport isNew).trans empty

section

variable {endpoint : Endpoint} {client : ChannelTransport}
  {contents : List Letter}

/-- The contents of a channel are seen by the endpoint which sends into it. -/
theorem inFlight_update (next : Network) (wired : network.Wired)
    (found : network.transport? endpoint = some client)
    (shared : next.shared = network.shared)
    (channels : next.channels =
      Function.update network.channels client.sender contents)
    (other : Endpoint) :
    next.inFlight other =
      if other = endpoint then contents else network.inFlight other := by
  have same : next.transport? other = network.transport? other := by
    rw [transport?, transport?, shared]
  rw [inFlight, inFlight, same, channels]
  cases isOther : network.transport? other with
  | none =>
      have different : other ≠ endpoint := by
        rintro rfl
        simp [found] at isOther
      rw [if_neg different]
      rfl
  | some otherClient =>
      simp only [Option.elim_some]
      split
      next equal =>
        subst equal
        cases found.symm.trans isOther
        exact Function.update_self _ _ _
      next different =>
        apply Function.update_of_ne
        intro sameSender
        exact different (wired.eq_of_sender found isOther sameSender.symm)

theorem silent_update (next : Network) (silent : network.Silent)
    (found : network.transport? endpoint = some client)
    (shared : next.shared = network.shared)
    (channels : next.channels =
      Function.update network.channels client.sender contents) :
    next.Silent := by
  intro channel unsent
  have same (other : Endpoint) :
      next.transport? other = network.transport? other := by
    rw [transport?, transport?, shared]
  have different : channel ≠ client.sender := fun equal =>
    unsent endpoint client ((same endpoint).trans found) equal.symm
  rw [channels, Function.update_of_ne different]
  exact silent channel fun other otherClient isOther =>
    unsent other otherClient ((same other).trans isOther)

/-- What waits for a client was sent by the other end. -/
theorem Silent.sender (silent : network.Silent) (wired : network.Wired)
    (found : network.transport? endpoint = some client)
    (waiting : network.channels client.receiver ≠ []) :
    endpoint.counterpart ≠ endpoint ∧
      ∃ source, network.transport? endpoint.counterpart = some source ∧
        source.sender = client.receiver := by
  by_contra missing
  apply waiting
  apply silent
  intro other source isSource same
  obtain ⟨rfl, different⟩ := wired.eq_counterpart found isSource same.symm
  exact missing ⟨different, source, isSource, same⟩

end

/-- What every endpoint has received, and then what is still in flight to it, is
what the other end has sent. -/
structure Reliable (network : Network) : Prop where
  wired : network.Wired
  silent : network.Silent
  flows : ∀ endpoint, network.received endpoint.counterpart ++
    network.inFlight endpoint = network.sent endpoint
  signed : ∀ endpoint, ∀ letter ∈ network.sent endpoint,
    letter.sender = endpoint
  /-- A worker has nothing to tell itself. -/
  foreign : ∀ endpoint, endpoint.counterpart = endpoint →
    network.received endpoint = []

theorem Reliable.new : Network.new.Reliable where
  wired :=
    { paired := fun _ _ found => by cases found
      apart := fun _ _ _ found => by cases found
      even := ⟨0, rfl⟩
      client := fun _ _ found => by cases found }
  silent _ _ := rfl
  flows _ := rfl
  signed _ _ member := by cases member
  foreign _ _ := rfl

theorem Reliable.connect (reliable : network.Reliable) (endpoint : Endpoint) :
    (network.connect endpoint).Reliable := by
  obtain ⟨found, wired, silent, inFlight, sent, received⟩ :=
    containerFor_spec reliable.wired reliable.silent endpoint.key
  refine ⟨⟨wired.paired, wired.apart, wired.even, ?_⟩, silent, ?_, ?_, ?_⟩
  · intro other client held
    simp only [Network.connect, IndexMap.get?_insert] at held
    split at held
    next same =>
      cases held
      subst same
      exact transport?_eq_some.mpr ⟨_, found, rfl⟩
    next => exact wired.client other client held
  · intro other
    have flows := reliable.flows other
    rw [← inFlight, ← sent, ← received] at flows
    exact flows
  · intro other letter member
    exact reliable.signed other letter (sent ▸ member)
  · intro other alone
    exact (congrFun received other).trans (reliable.foreign other alone)

theorem Reliable.drop (reliable : network.Reliable) (endpoint : Endpoint) :
    (network.drop endpoint).Reliable := by
  refine ⟨{ reliable.wired with client := ?_ }, reliable.silent, reliable.flows,
    reliable.signed, reliable.foreign⟩
  intro other client held
  simp only [Network.drop, IndexMap.get?_swapRemove] at held
  split at held
  · cases held
  · exact reliable.wired.client other client held

theorem Reliable.send (reliable : network.Reliable) (endpoint : Endpoint)
    (content : Bytes) :
    ∃ next, network.send endpoint content = .ok next ∧ next.Reliable := by
  unfold Network.send
  cases held : network.clients.get? endpoint with
  | none => exact ⟨network, rfl, reliable⟩
  | some client =>
      have found := reliable.wired.client endpoint client held
      simp only [reliable.wired.hasReceiver found, if_true]
      let letter : Letter := ⟨endpoint, content⟩
      let next : Network := { network with
        channels := Function.update network.channels client.sender
          (network.channels client.sender ++ [letter])
        sent := Function.update network.sent endpoint
          (network.sent endpoint ++ [letter]) }
      have seen (other : Endpoint) : next.inFlight other =
          if other = endpoint then network.channels client.sender ++ [letter]
          else network.inFlight other :=
        inFlight_update next reliable.wired found rfl rfl other
      refine ⟨next, rfl, ⟨reliable.wired.paired, reliable.wired.apart,
        reliable.wired.even, reliable.wired.client⟩,
        silent_update next reliable.silent found rfl rfl, ?_, ?_, reliable.foreign⟩
      · intro other
        rw [seen]
        have flows := reliable.flows other
        simp only [next]
        split
        next same =>
          subst same
          rw [Function.update_self, ← flows, inFlight_of_transport found,
            List.append_assoc]
        next different =>
          rw [Function.update_of_ne different]
          exact flows
      · intro other message member
        simp only [next] at member
        by_cases same : other = endpoint
        · subst same
          rw [Function.update_self] at member
          rcases List.mem_append.mp member with before | last
          · exact reliable.signed _ message before
          · rw [List.mem_singleton.mp last]
        · rw [Function.update_of_ne same] at member
          exact reliable.signed other message member

theorem Reliable.recv (reliable : network.Reliable) (endpoint : Endpoint) :
    (network.recv endpoint).Reliable := by
  unfold Network.recv
  cases held : network.clients.get? endpoint with
  | none => exact reliable
  | some client =>
      have found := reliable.wired.client endpoint client held
      cases queued : network.channels client.receiver with
      | nil => simpa only [queued] using reliable
      | cons letter rest =>
          simp only [queued]
          obtain ⟨apart, source, isSource, same⟩ :=
            reliable.silent.sender reliable.wired found (by simp [queued])
          let next : Network := { network with
            channels := Function.update network.channels client.receiver rest
            received := Function.update network.received endpoint
              (network.received endpoint ++ [letter]) }
          have channels : next.channels =
              Function.update network.channels source.sender rest := by
            rw [same]
          have seen (other : Endpoint) : next.inFlight other =
              if other = endpoint.counterpart then rest
              else network.inFlight other :=
            inFlight_update next reliable.wired isSource rfl channels other
          show next.Reliable
          refine ⟨⟨reliable.wired.paired, reliable.wired.apart,
            reliable.wired.even, reliable.wired.client⟩,
            silent_update next reliable.silent isSource rfl channels, ?_,
            reliable.signed, ?_⟩
          · intro other
            rw [seen]
            have flows := reliable.flows other
            simp only [next]
            split
            next isOther =>
              subst isOther
              rw [inFlight_of_transport isSource, same, queued,
                Endpoint.counterpart_counterpart] at flows
              rw [Endpoint.counterpart_counterpart, Function.update_self,
                List.append_assoc]
              exact flows
            next different =>
              have elsewhere : other.counterpart ≠ endpoint := by
                rintro rfl
                exact different (Endpoint.counterpart_counterpart other).symm
              rw [Function.update_of_ne elsewhere]
              exact flows
          · intro other alone
            have elsewhere : other ≠ endpoint := by
              rintro rfl
              exact apart alone
            simp only [next]
            rw [Function.update_of_ne elsewhere]
            exact reliable.foreign other alone

theorem Reliable.step (reliable : network.Reliable) (event : Event) :
    ∃ next, network.step event = .ok next ∧ next.Reliable := by
  cases event with
  | connect endpoint => exact ⟨_, rfl, reliable.connect endpoint⟩
  | drop endpoint => exact ⟨_, rfl, reliable.drop endpoint⟩
  | send endpoint content => exact reliable.send endpoint content
  | recv endpoint => exact ⟨_, rfl, reliable.recv endpoint⟩

theorem Reliable.run (reliable : network.Reliable) (events : List Event) :
    ∃ last, events.foldlM Network.step network = .ok last ∧
      last.Reliable := by
  induction events generalizing network with
  | nil => exact ⟨network, rfl, reliable⟩
  | cons event rest ih =>
      obtain ⟨next, stepped, still⟩ := reliable.step event
      obtain ⟨last, reached, kept⟩ := ih still
      refine ⟨last, ?_, kept⟩
      rw [List.foldlM_cons, stepped]
      exact reached

/-- The channels of a pair are crossed. -/
theorem Wired.inFlight_counterpart (wired : network.Wired)
    {endpoint : Endpoint} {client : ChannelTransport}
    (found : network.transport? endpoint = some client)
    (apart : endpoint.counterpart ≠ endpoint) :
    network.inFlight endpoint.counterpart =
      network.channels client.receiver := by
  obtain ⟨container, isContainer, rfl⟩ := transport?_eq_some.mp found
  obtain ⟨pair, rfl, -⟩ := wired.paired _ _ isContainer
  have isOther : network.transport? endpoint.counterpart = some
      ((newTransportPair (2 * pair)).transport endpoint.counterpart.isLow) :=
    transport?_eq_some.mpr
      ⟨_, by rw [Endpoint.key_counterpart]; exact isContainer, rfl⟩
  rw [inFlight_of_transport isOther]
  have crossed : endpoint.counterpart.isLow ≠ endpoint.isLow :=
    fun same => apart (Endpoint.counterpart_of_isLow same)
  cases low : endpoint.isLow <;> cases other : endpoint.counterpart.isLow
  · exact absurd (other.trans low.symm) crossed
  · rfl
  · rfl
  · exact absurd (other.trans low.symm) crossed

/-- A client which is connected to another worker takes the oldest message in
flight to it. -/
theorem Reliable.takes (reliable : network.Reliable) {endpoint : Endpoint}
    (connected : endpoint ∈ network.clients)
    (apart : endpoint.counterpart ≠ endpoint) :
    (network.recv endpoint).received endpoint =
      network.received endpoint ++
        (network.inFlight endpoint.counterpart).head?.toList := by
  obtain ⟨client, held⟩ := IndexMap.exists_get?_of_mem connected
  have found := reliable.wired.client endpoint client held
  have waiting := reliable.wired.inFlight_counterpart found apart
  simp only [Network.recv, held]
  cases queued : network.channels client.receiver with
  | nil => simp [waiting, queued]
  | cons letter rest => simp [waiting, queued]

theorem Reliable.sends (reliable : network.Reliable) {endpoint : Endpoint}
    (connected : endpoint ∈ network.clients) (content : Bytes) :
    ∃ next, network.send endpoint content = .ok next ∧
      next.sent endpoint = network.sent endpoint ++ [⟨endpoint, content⟩] := by
  obtain ⟨client, held⟩ := IndexMap.exists_get?_of_mem connected
  have found := reliable.wired.client endpoint client held
  simp only [Network.send, held, reliable.wired.hasReceiver found, if_true]
  exact ⟨_, rfl, Function.update_self _ _ _⟩

structure Served (network : Network) (endpoint : Endpoint) : Prop where
  sends : ∀ content, ∃ next, network.send endpoint content = .ok next ∧
    next.sent endpoint = network.sent endpoint ++ [⟨endpoint, content⟩]
  /-- It takes the oldest message which is in flight to it. -/
  takes : endpoint.counterpart ≠ endpoint →
    (network.recv endpoint).received endpoint =
      network.received endpoint ++
        (network.inFlight endpoint.counterpart).head?.toList

/-- No call fails.  What an endpoint has received, and then what is in flight to
it, is what the other end has sent, and nothing else; whoever connects goes on
with the oldest message in flight. -/
theorem links_reliable (events : List Event) :
    ∃ network, events.foldlM Network.step Network.new = .ok network ∧
      ∀ endpoint,
        network.received endpoint ++ network.inFlight endpoint.counterpart =
          network.sent endpoint.counterpart ∧
        endpoint ∈ (network.connect endpoint).clients ∧
        (endpoint ∈ network.clients → network.Served endpoint) ∧
        ∀ letter ∈ network.received endpoint,
          letter.sender = endpoint.counterpart ∧ letter.sender ≠ endpoint := by
  obtain ⟨network, reached, reliable⟩ := Reliable.new.run events
  refine ⟨network, reached, fun endpoint => ?_⟩
  have flows := reliable.flows endpoint.counterpart
  rw [Endpoint.counterpart_counterpart] at flows
  refine ⟨flows, IndexMap.mem_insert.mpr (.inr rfl), fun connected => ?_,
    fun letter member => ?_⟩
  · exact ⟨reliable.sends connected, reliable.takes connected⟩
  · have signed := reliable.signed _ letter
      (flows ▸ List.mem_append_left _ member)
    refine ⟨signed, fun own => ?_⟩
    rw [reliable.foreign endpoint (signed.symm.trans own)] at member
    cases member

/-- Both ends are dropped and connected again while messages are in flight. -/
def reconnectTrace (sender : Endpoint) : List Event :=
  [.connect sender, .send sender [1], .drop sender,
    .connect sender.counterpart, .connect sender, .send sender [2],
    .recv sender.counterpart, .drop sender.counterpart,
    .connect sender.counterpart]

theorem reconnected_receives :
    let sender : Endpoint := .operatorToOperator ⟨0, by decide⟩ ⟨1, by decide⟩ 7
    ∃ network,
      (reconnectTrace sender).foldlM Network.step Network.new = .ok network ∧
      (network.recv sender.counterpart).received sender.counterpart =
        [⟨sender, [1]⟩, ⟨sender, [2]⟩] := by
  intro sender
  obtain ⟨network, reached, reliable⟩ := links_reliable (reconnectTrace sender)
  obtain ⟨-, -, served, -⟩ := reliable sender.counterpart
  refine ⟨network, reached, ?_⟩
  obtain rfl := Except.ok.inj reached
  rw [(served (by decide)).takes (by decide)]
  decide

end Network

end Malstrom.Runtime
