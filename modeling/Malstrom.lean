import Malstrom.Data.IndexMap
import Malstrom.Keyed.System
import Malstrom.Keyed.Move
import Malstrom.Keyed.Rescale
import Malstrom.Keyed.Handshake
import Malstrom.Keyed.Settled
import Malstrom.Keyed.Partitioners
import Malstrom.Keyed.Barrier
import Malstrom.Keyed.Targets
import Malstrom.Data.Sweep
import Malstrom.Keyed.Placement
import Malstrom.Keyed.Ownership
import Malstrom.Data.Cut
import Malstrom.Keyed.Alignment
import Malstrom.Keyed.Snapshot
import Malstrom.Channels.OperatorIo
import Malstrom.Channels.Session
import Malstrom.Channels.Alignment
import Malstrom.Channels.Epochs
import Malstrom.Runtime.Threaded
import Malstrom.Sources.Stateful
import Malstrom.Kafka.Source
import Malstrom.Sources.Cluster
import Malstrom.Keyed.Epochs
import Malstrom.Keyed.Announce
import Malstrom.Keyed.Run
import Malstrom.Stream.Operator
import Malstrom.Stream.Worker
import Malstrom.Stream.Wiring
import Malstrom.Stream.Snapshot
import Malstrom.Stream.Collection
import Malstrom.Stream.Reconfiguration
import Malstrom.Data.Loop
import Malstrom.Keyed.Waiting
import Malstrom.Stream.Scheduling
import Malstrom.Coordinator.Round
import Malstrom.Coordinator.Job
import Malstrom.Coordinator.Conversation
import Malstrom.Coordinator.Deployment
import Malstrom.Coordinator.Standing
import Malstrom.Coordinator.Operation
import Malstrom.Coordinator.Incarnations
import Malstrom.Data.Answer
import Malstrom.Snapshot.State
import Malstrom.Snapshot.SlateDb
import Malstrom.Operators.GenerateEpochs
import Malstrom.Operators.Restart
import Malstrom.Kubernetes.Operator
import Malstrom.Keyed.Collection
import Malstrom.Keyed.Hops
import Malstrom.Keyed.Overtaking
import Malstrom.Keyed.Conservation
import Malstrom.Keyed.Exclusive
import Malstrom.Sources.Restart
import Malstrom.Channels.Advance
import Malstrom.Operators.OnTime
import Malstrom.Operators.OutOfOrderness
import Malstrom.Sinks.Stateful
import Malstrom.Sources.SingleIterator
import Malstrom.Keyed.Restart
import Malstrom.Runtime.Communication
import Malstrom.Stream.Completion
import Malstrom.Stream.Recorded
import Malstrom.Stream.Pipeline
import Malstrom.Stream.Builder
import Malstrom.Keyed.Chronicle
import Malstrom.Stream.Performed
import Malstrom.Stream.Resumed
import Malstrom.Kubernetes.Reconciliation
import Malstrom.Kubernetes.Rescaling
import Malstrom.Data.Conveyor
import Malstrom.Kubernetes.Communication
import Malstrom.Kubernetes.Delivered
