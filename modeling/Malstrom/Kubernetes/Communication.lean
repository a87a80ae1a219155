import Mathlib.Algebra.Group.Nat.Defs
import Mathlib.Logic.Function.Basic
import Malstrom.Types

namespace Malstrom.Kubernetes.Communication

open Data

/-! Communication between the pods of a job. Every transport has a bounded queue
at both ends, and a task which streams the messages to the other process. -/

/-! ### The identifiers in the metadata of a request -/

inductive Status where
  | invalidArgument (message : String)
  deriving DecidableEq

inductive IntErrorKind where
  | empty
  | invalidDigit
  | posOverflow
  deriving DecidableEq

def IntErrorKind.debug : IntErrorKind → String
  | .empty => "ParseIntError \x7b kind: Empty \x7d"
  | .invalidDigit => "ParseIntError \x7b kind: InvalidDigit \x7d"
  | .posOverflow => "ParseIntError \x7b kind: PosOverflow \x7d"

def parseDigits (result : Nat) : List Char → Except IntErrorKind Nat
  | [] => .ok result
  | digit :: rest =>
      if digit.isDigit then
        let next := 10 * result + (digit.toNat - 48)
        if next < 2 ^ 64 then parseDigits next rest else .error .posOverflow
      else .error .invalidDigit

/-- `u64::from_str`, which takes a leading plus sign. -/
def parseU64 (raw : String) : Except IntErrorKind UInt64 :=
  match raw.toList with
  | [] => .error .empty
  | ['+'] => .error .invalidDigit
  | '+' :: digits => (parseDigits 0 digits).map UInt64.ofNat
  | digits => (parseDigits 0 digits).map UInt64.ofNat

def decodeId (raw : String) : Except Status UInt64 :=
  match parseU64 raw with
  | .ok id => .ok id
  | .error kind => .error (.invalidArgument ("Invalid u64: " ++ kind.debug))

/-- A header: visible ASCII, or the error which reading it gives. -/
inductive MetadataValue where
  | visible (text : String)
  | unreadable (error : String)
  deriving DecidableEq

abbrev Metadata := IndexMap String MetadataValue

/-- An identifier from a header; the messages call the header by a label. -/
def headerId (metadata : Metadata) (name label : String) :
    Except Status UInt64 :=
  match metadata.get? name with
  | none => .error (.invalidArgument ("Missing " ++ label ++ " metadata"))
  | some (.unreadable error) =>
      .error (.invalidArgument
        ("Invalid " ++ label ++ " metadata: " ++ error))
  | some (.visible raw) => decodeId raw

def fromWorkerId (metadata : Metadata) : Except Status UInt64 :=
  headerId metadata "from-worker-id" "worker_id"

def extractMetadata (metadata : Metadata) : Except Status (UInt64 × UInt64) :=
  match headerId metadata "operator-id" "operator_id" with
  | .error status => .error status
  | .ok operator =>
      match fromWorkerId metadata with
      | .error status => .error status
      | .ok remoteWorker => .ok (remoteWorker, operator)

/-! ### Transports, tasks and streams -/

inductive Endpoint where
  | operatorToOperator (thisWorker toWorker operator : UInt64)
  | workerToCoordinator (thisWorker : UInt64)
  | coordinatorToWorker (toWorker : UInt64)
  deriving DecidableEq

def Endpoint.counterpart : Endpoint → Endpoint
  | .operatorToOperator thisWorker toWorker operator =>
      .operatorToOperator toWorker thisWorker operator
  | .workerToCoordinator thisWorker => .coordinatorToWorker thisWorker
  | .coordinatorToWorker toWorker => .workerToCoordinator toWorker

/-- Where the backends keep a queue. Of the queues from the coordinator to a
worker each transport has its own, which is named by the transport's task. -/
inductive Place where
  | inbound (worker : UInt64) (target : UInt64 × UInt64)
  | outbound (worker : UInt64) (target : UInt64 × UInt64)
  | coordinatorInbound (worker : UInt64)
  | coordinatorOutbound (worker : UInt64)
  | fromWorker (worker : UInt64)
  | toWorker (worker : UInt64) (task : Nat)
  deriving DecidableEq

/-- A message with the endpoint which sent it; only the content is sent. -/
structure Letter where
  sender : Endpoint
  content : Bytes
  deriving DecidableEq

structure GrpcTransport where
  outboundSender : Place
  inboundReceiver : Place
  deriving DecidableEq

inductive Stage where
  | connecting
  | streaming
  | ended
  deriving DecidableEq

/-- The server's task for a stream: the queue it sends to and the message for
which that queue has had no room yet. -/
structure Forward where
  inbound : Place
  carried : Option Letter
  deriving DecidableEq

structure Task where
  endpoint : Endpoint
  outbound : Place
  stage : Stage
  line : List Letter
  forward : Option Forward
  deriving DecidableEq

def Endpoint.metadata : Endpoint → Metadata
  | .operatorToOperator thisWorker _ operator =>
      (IndexMap.empty.insert "operator-id"
          (.visible (toString operator))).insert "from-worker-id"
        (.visible (toString thisWorker))
  | .workerToCoordinator thisWorker =>
      IndexMap.empty.insert "from-worker-id" (.visible (toString thisWorker))
  | .coordinatorToWorker _ => .empty

/-- `operator_operator` of a worker's server: the queue for the stream. -/
def operatorOperator (worker : UInt64) (metadata : Metadata) :
    Except Status Place :=
  (extractMetadata metadata).map fun target => .inbound worker target

/-- `worker_coordinator` of the coordinator's server. -/
def workerCoordinator (metadata : Metadata) : Except Status Place :=
  (fromWorkerId metadata).map .fromWorker

/-- `coordinator_worker` of a worker's server. -/
def coordinatorWorker (worker : UInt64) : Except Status Place :=
  .ok (.coordinatorInbound worker)

def Endpoint.serve : Endpoint → Metadata → Except Status Place
  | .operatorToOperator _ toWorker _, metadata =>
      operatorOperator toWorker metadata
  | .workerToCoordinator _, metadata => workerCoordinator metadata
  | .coordinatorToWorker toWorker, _ => coordinatorWorker toWorker

inductive TransportError where
  | sendError (cause : String)
  deriving DecidableEq

/-- The backends of all pods of a job, each pod started once. -/
structure Network where
  queues : Place → Option (List Letter)
  tasks : List Task
  /-- The transports which have not been dropped. -/
  transports : IndexMap Endpoint GrpcTransport
  /-- Everything which an endpoint has sent so far. -/
  sent : Endpoint → List Letter
  /-- Everything which an endpoint has received so far. -/
  received : Endpoint → List Letter

inductive Event where
  | connect (endpoint : Endpoint)
  | drop (endpoint : Endpoint)
  | send (endpoint : Endpoint) (content : Bytes)
  | recv (endpoint : Endpoint)
  | reach (number : Nat)
  | accept (number : Nat)
  | pull (number : Nat)
  | carry (number : Nat)
  | deposit (number : Nat)
  /-- The task fails, or its stream breaks and the reader still gets the first
  messages on it. -/
  | lose (number kept : Nat)
  deriving DecidableEq

namespace Network

def new : Network where
  queues
    | .coordinatorInbound _ | .coordinatorOutbound _ => some []
    | _ => none
  tasks := []
  transports := .empty
  sent _ := []
  received _ := []

def queue (network : Network) (place : Place) : List Letter :=
  (network.queues place).getD []

def setQueue (network : Network) (place : Place) (letters : List Letter) :
    Network :=
  { network with
    queues := Function.update network.queues place (some letters) }

def entry (network : Network) (place : Place) : Network :=
  match network.queues place with
  | some _ => network
  | none => network.setQueue place []

def setTask (network : Network) (number : Nat) (task : Task) : Network :=
  { network with tasks := network.tasks.set number task }

def spawn (network : Network) (endpoint : Endpoint) (inbound outbound : Place) :
    Network :=
  { network with
    tasks := network.tasks ++ [{
      endpoint := endpoint, outbound := outbound, stage := .connecting
      line := [], forward := none }]
    transports := network.transports.insert endpoint
      { outboundSender := outbound, inboundReceiver := inbound } }

def openTransport (network : Network) (endpoint : Endpoint)
    (inbound outbound : Place) : Network :=
  ((network.entry inbound).entry outbound).spawn endpoint inbound outbound

def operatorToOperator (network : Network)
    (thisWorker toWorker operator : UInt64) : Network :=
  network.openTransport (.operatorToOperator thisWorker toWorker operator)
    (.inbound thisWorker (toWorker, operator))
    (.outbound thisWorker (toWorker, operator))

def workerToCoordinator (network : Network) (thisWorker : UInt64) : Network :=
  network.openTransport (.workerToCoordinator thisWorker)
    (.coordinatorInbound thisWorker) (.coordinatorOutbound thisWorker)

def coordinatorToWorker (network : Network) (worker : UInt64) : Network :=
  network.openTransport (.coordinatorToWorker worker) (.fromWorker worker)
    (.toWorker worker network.tasks.length)

def connect (network : Network) : Endpoint → Network
  | .operatorToOperator thisWorker toWorker operator =>
      network.operatorToOperator thisWorker toWorker operator
  | .workerToCoordinator thisWorker => network.workerToCoordinator thisWorker
  | .coordinatorToWorker worker => network.coordinatorToWorker worker

/-- The backends keep a queue's receiver, save for the queues of the
coordinator's transports, which only the task receives from. -/
def hasReceiver (network : Network) : Place → Bool
  | .toWorker _ task =>
      (network.tasks[task]?).any fun task => decide (task.stage ≠ .ended)
  | _ => true

def send (bufferCapacity : Nat) (network : Network) (endpoint : Endpoint)
    (content : Bytes) : Except TransportError Network :=
  match network.transports.get? endpoint with
  | none => .ok network
  | some transport =>
      let place := transport.outboundSender
      if network.hasReceiver place then
        if (network.queue place).length < bufferCapacity then
          let letter := ⟨endpoint, content⟩
          .ok { network.setQueue place (network.queue place ++ [letter]) with
            sent := Function.update network.sent endpoint
              (network.sent endpoint ++ [letter]) }
        else .error (.sendError ("Queue Full: Timeout trying to enqueue " ++
          "message into outbound queue"))
      else .error (.sendError ("Sender Thread Dead: Sender thread is " ++
        "disconnected. Check for errors above"))

/-- The backends keep the senders of the queues that are received from: none is
ever found disconnected. -/
def recv (network : Network) (endpoint : Endpoint) : Option Bytes × Network :=
  match network.transports.get? endpoint with
  | none => (none, network)
  | some transport =>
      match network.queue transport.inboundReceiver with
      | [] => (none, network)
      | letter :: rest =>
          (some letter.content,
            { network.setQueue transport.inboundReceiver rest with
              received := Function.update network.received endpoint
                (network.received endpoint ++ [letter]) })

def reach (network : Network) (number : Nat) : Network :=
  match network.tasks[number]? with
  | none => network
  | some task =>
      if task.stage = .connecting then
        network.setTask number { task with stage := .streaming }
      else network

/-- The server answers the request, also of a stream which has broken since. The
task fails with the request. -/
def accept (network : Network) (number : Nat) : Network :=
  match network.tasks[number]? with
  | none => network
  | some task =>
      if task.stage = .connecting ∨ task.forward.isSome then network
      else
        match task.endpoint.serve task.endpoint.metadata with
        | .error _ =>
            network.setTask number { task with stage := .ended, line := [] }
        | .ok inbound =>
            (network.entry inbound).setTask number
              { task with forward := some ⟨inbound, none⟩ }

def pull (network : Network) (number : Nat) : Network :=
  match network.tasks[number]? with
  | none => network
  | some task =>
      if task.stage = .streaming then
        match network.queue task.outbound with
        | [] => network
        | letter :: rest =>
            (network.setQueue task.outbound rest).setTask number
              { task with line := task.line ++ [letter] }
      else network

def carry (network : Network) (number : Nat) : Network :=
  match network.tasks[number]? with
  | none => network
  | some task =>
      match task.forward, task.line with
      | some ⟨inbound, none⟩, letter :: rest =>
          network.setTask number
            { task with line := rest, forward := some ⟨inbound, some letter⟩ }
      | _, _ => network

/-- The server's task has waited for room in the inbound queue. -/
def deposit (bufferCapacity : Nat) (network : Network) (number : Nat) :
    Network :=
  match network.tasks[number]? with
  | none => network
  | some task =>
      match task.forward with
      | some ⟨inbound, some letter⟩ =>
          if (network.queue inbound).length < bufferCapacity then
            (network.setQueue inbound
                (network.queue inbound ++ [letter])).setTask number
              { task with forward := some ⟨inbound, none⟩ }
          else network
      | _ => network

def lose (network : Network) (number kept : Nat) : Network :=
  match network.tasks[number]? with
  | none => network
  | some task =>
      network.setTask number
        { task with stage := .ended, line := task.line.take kept }

/-- Nothing of a message is left whose send failed. -/
def step (bufferCapacity : Nat) (network : Network) : Event → Network
  | .connect endpoint => network.connect endpoint
  | .drop endpoint =>
      { network with transports := network.transports.swapRemove endpoint }
  | .send endpoint content =>
      match network.send bufferCapacity endpoint content with
      | .ok next => next
      | .error _ => network
  | .recv endpoint => (network.recv endpoint).2
  | .reach number => network.reach number
  | .accept number => network.accept number
  | .pull number => network.pull number
  | .carry number => network.carry number
  | .deposit number => network.deposit bufferCapacity number
  | .lose number kept => network.lose number kept

def run (bufferCapacity : Nat) (network : Network) (events : List Event) :
    Network :=
  events.foldl (step bufferCapacity) network

end Network

/-! ### What is decoded is what was encoded -/

theorem le_ofDigitChars (digits : List Char) (result : Nat) :
    result ≤ Nat.ofDigitChars 10 digits result := by
  induction digits generalizing result with
  | nil => simp
  | cons digit rest ih =>
      rw [Nat.ofDigitChars_cons]
      exact le_trans (by omega) (ih _)

theorem parseDigits_ofDigitChars {digits : List Char} {result : Nat}
    (isDigit : ∀ digit ∈ digits, digit.isDigit)
    (fits : Nat.ofDigitChars 10 digits result < 2 ^ 64) :
    parseDigits result digits = .ok (Nat.ofDigitChars 10 digits result) := by
  induction digits generalizing result with
  | nil => simp [parseDigits]
  | cons digit rest ih =>
      rw [Nat.ofDigitChars_cons] at fits ⊢
      have below := (le_ofDigitChars rest _).trans_lt fits
      simp only [Char.reduceToNat] at fits below ⊢
      rw [parseDigits, if_pos (isDigit digit List.mem_cons_self), if_pos below]
      exact ih (fun other member =>
        isDigit other (List.mem_cons_of_mem _ member)) fits

theorem parseU64_digits {raw : String} {digits : List Char}
    (isRaw : raw.toList = digits) (some : digits ≠ [])
    (isDigit : ∀ digit ∈ digits, digit.isDigit) :
    parseU64 raw = (parseDigits 0 digits).map UInt64.ofNat := by
  unfold parseU64
  rw [isRaw]
  split
  next => exact absurd rfl some
  next => exact absurd (isDigit _ List.mem_cons_self) (by decide)
  next => exact absurd (isDigit _ List.mem_cons_self) (by decide)
  next => rfl

@[simp] theorem decodeId_toString (id : UInt64) :
    decodeId (toString id) = .ok id := by
  have isDigit : ∀ digit ∈ Nat.toDigits 10 id.toNat, digit.isDigit :=
    fun digit member =>
      Nat.isDigit_of_mem_toDigits (by decide) (by decide) member
  have value : Nat.ofDigitChars 10 (Nat.toDigits 10 id.toNat) 0 = id.toNat :=
    Nat.ofDigitChars_ten_toDigits
  have parsed := parseDigits_ofDigitChars isDigit
    (value.trans_lt id.toNat_lt)
  have isRaw : (toString id).toList = Nat.toDigits 10 id.toNat :=
    Nat.toList_repr
  unfold decodeId
  rw [parseU64_digits isRaw Nat.toDigits_ne_nil isDigit, parsed, value]
  simp [Except.map]

end Malstrom.Kubernetes.Communication
