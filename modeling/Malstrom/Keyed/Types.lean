import Malstrom.Types

namespace Malstrom.Keyed

open Data

/-! Messages and states of the distributor, which spreads a keyed stream over
the workers. -/

abbrev WorkerPartitioner (K : Type) := K → IndexSet WorkerId → WorkerId

structure NetworkDataMessage (K V T : Type) where
  content : DataMessage K V T
  version : Version
  deriving DecidableEq

structure NetworkAcquire (K : Type) where
  key : K
  collection : IndexMap OperatorId Bytes

def NetworkAcquire.toAcquire {K : Type} (acquire : NetworkAcquire K) :
    Acquire K :=
  { key := acquire.key, collection := acquire.collection }

inductive NetworkMessage (K V T : Type) where
  | data (message : NetworkDataMessage K V T)
  | epoch (time : T)
  | barrierMarker
  | suspendMarker
  | acquire (acquire : NetworkAcquire K)
  | upgrade (version : Version)
  | ackUpgrade (version : Version)

def NetworkMessage.data? {K V T : Type} :
    NetworkMessage K V T → Option (NetworkDataMessage K V T)
  | .data message => some message
  | _ => none

def NetworkMessage.key? {K V T : Type} : NetworkMessage K V T → Option K
  | .data message => some message.content.key
  | .acquire moved => some moved.key
  | _ => none

/-- Neither a record nor a state nor a step of the version handshake. -/
def NetworkMessage.isQuiet {K V T : Type} : NetworkMessage K V T → Bool
  | .epoch _ | .barrierMarker | .suspendMarker => true
  | .data _ | .acquire _ | .upgrade _ | .ackUpgrade _ => false

def NetworkMessage.isPayload {K V T : Type} : NetworkMessage K V T → Bool
  | .data _ | .acquire _ => true
  | .epoch _ | .barrierMarker | .suspendMarker | .upgrade _
  | .ackUpgrade _ => false

structure RemoteState (T : Type) where
  isBarred : Bool := false
  frontier : Option T := none
  /-- Last version this remote told us it has upgraded to. -/
  lastVersion : Option Version := none
  /-- Last version of ours this remote has acknowledged. -/
  lastAckVersion : Option Version := none
  sentSuspend : Bool := false

/-- The workers we hold a communication client for, each with what we know
about it. -/
abbrev Remotes (T : Type) := IndexMap WorkerId (RemoteState T)

/-- The cell of an interrogation: the keys reported so far, and the test a
key has to pass to be reported. -/
structure Interrogate (K : Type) where
  shared : IndexSet K
  tester : K → Bool

namespace Interrogate

variable {K : Type}

def new (tester : K → Bool) : Interrogate K :=
  { shared := IndexSet.empty, tester := tester }

def addKeys [DecidableEq K] (interrogate : Interrogate K) (keys : List K) :
    Interrogate K :=
  { interrogate with
    shared := interrogate.shared.insertAll (keys.filter interrogate.tester) }

@[simp] theorem addKeys_tester [DecidableEq K] (interrogate : Interrogate K)
    (keys : List K) :
    (interrogate.addKeys keys).tester = interrogate.tester := rfl

@[simp] theorem mem_addKeys [DecidableEq K] {interrogate : Interrogate K}
    {keys : List K} {key : K} :
    key ∈ (interrogate.addKeys keys).shared ↔
      key ∈ interrogate.shared ∨
        key ∈ keys ∧ interrogate.tester key = true := by
  simp [addKeys]

/-- The keys, once no clone is left elsewhere. -/
def tryUnwrap (interrogate : Interrogate K) (clones : Nat) :
    Except (Interrogate K) (IndexSet K) :=
  if clones = 0 then .ok interrogate.shared else .error interrogate

end Interrogate

/-- The cell of a collection: the state reported for one key, by operator. -/
structure Collect (K : Type) where
  key : K
  collection : IndexMap OperatorId Bytes

namespace Collect

variable {K : Type}

def new (key : K) : Collect K := { key := key, collection := IndexMap.empty }

def addState (collect : Collect K) (operatorId : OperatorId) (state : Bytes) :
    Collect K :=
  { collect with collection := collect.collection.insert operatorId state }

@[simp] theorem addState_key (collect : Collect K) (operatorId : OperatorId)
    (state : Bytes) : (collect.addState operatorId state).key = collect.key :=
  rfl

/-- The acquire message to send, once no clone is left elsewhere. -/
def tryIntoAcquire (collect : Collect K) (clones : Nat) :
    Except (Collect K) (NetworkAcquire K) :=
  if clones = 0 then
    .ok { key := collect.key, collection := collect.collection }
  else .error collect

end Collect

end Malstrom.Keyed
