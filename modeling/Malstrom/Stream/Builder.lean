import Mathlib.Data.List.ReduceOption
import Malstrom.Stream.Worker

namespace Malstrom.Stream

open Data Channels Keyed Operators

variable {K V T S E : Type}

/-! How a program puts its streams together, and the graph which comes of it. -/

/-- A channel: the output it comes from, `none` for the root, and which of the
senders of the output it has. -/
structure Edge where
  source : Option Nat
  sender : Nat
  deriving DecidableEq

/-- An operator which is not built yet; operators are numbered in the order in
which they are made. -/
structure OperatorBuilder (K V T S E : Type) where
  name : String
  kind : Kind K V T S E
  input : List Edge
  /-- Which senders get a record. -/
  partitioner : DataMessage K V T → Nat → Bool

structure StreamBuilder where
  /-- Operators which the runtime does not have yet. -/
  operators : List Nat
  tail : List Edge

structure WorkerBuilder (K V T S E : Type) where
  made : List (OperatorBuilder K V T S E) := []
  /-- The operators of the inner builder, in their order. -/
  operators : List Nat := []
  /-- All streams there have been, those which are used up as `none`. -/
  streams : List (Option StreamBuilder) := []
  /-- How many channels come from the root. -/
  rootSenders : Nat := 0

/-- What a program does with its streams.  Nothing can be done with a stream
behind a sink. -/
inductive StreamCall (K V T S E : Type) where
  | newStream
  | append (stream : Nat) (name : String) (kind : Kind K V T S E)
      (forwards : kind.forwards = true)
  | sink (stream : Nat) (name : String) (kind : Kind K V T S E)
  | split (stream : Nat) (name : String) (kind : Kind K V T S E)
      (forwards : kind.forwards = true)
      (partitioner : DataMessage K V T → Nat → Bool) (outputs : Nat)
  | union (stream : Nat) (others : List Nat)
  | drop (stream : Nat)

def fullBroadcast (_ : DataMessage K V T) (_ : Nat) : Bool := true

namespace WorkerBuilder

variable (builder : WorkerBuilder K V T S E)

def addOperators (operators : List Nat) : WorkerBuilder K V T S E :=
  { builder with operators := builder.operators ++ operators }

def addStream (stream : StreamBuilder) : WorkerBuilder K V T S E :=
  { builder with streams := builder.streams ++ [some stream] }

def fromReceiver (tail : List Edge) : WorkerBuilder K V T S E :=
  builder.addStream ⟨[], tail⟩

def make (operator : OperatorBuilder K V T S E) : WorkerBuilder K V T S E :=
  { builder with made := builder.made ++ [operator] }

/-- The stream, which nothing else can be done with. -/
def take (stream : Nat) : Option (StreamBuilder × WorkerBuilder K V T S E) :=
  match builder.streams[stream]? with
  | some (some current) =>
      some (current,
        { builder with streams := builder.streams.set stream none })
  | _ => none

def finishPopTail (stream : Nat) :
    Option (List Edge × WorkerBuilder K V T S E) :=
  (builder.take stream).map fun taken =>
    (taken.1.tail, taken.2.addOperators taken.1.operators)

def finishAll (builder : WorkerBuilder K V T S E) :
    List Nat → Option (List Edge × WorkerBuilder K V T S E)
  | [] => some ([], builder)
  | stream :: rest =>
      (builder.finishPopTail stream).bind fun finished =>
        (finished.2.finishAll rest).map fun others =>
          (finished.1 ++ others.1, others.2)

def append (stream : Nat) (name : String) (kind : Kind K V T S E) :
    Option (StreamBuilder × WorkerBuilder K V T S E) :=
  (builder.take stream).map fun taken =>
    let operator := taken.2.made.length
    ({ operators := taken.1.operators ++ [operator]
       tail := [⟨some operator, 0⟩] },
      taken.2.make
        { name := name, kind := kind, input := taken.1.tail
          partitioner := fullBroadcast })

def call : StreamCall K V T S E → Option (WorkerBuilder K V T S E)
  | .newStream => some
      { builder.fromReceiver [⟨none, builder.rootSenders⟩] with
        rootSenders := builder.rootSenders + 1 }
  | .append stream name kind _ =>
      (builder.append stream name kind).map fun appended =>
        appended.2.addStream appended.1
  | .sink stream name kind =>
      (builder.append stream name kind).map fun appended =>
        -- the stream behind the sink is dropped at once
        appended.2.addOperators appended.1.operators
  | .split stream name kind _ partitioner outputs =>
      (builder.finishPopTail stream).map fun finished =>
        let operator := finished.2.made.length
        let placed := (finished.2.make
          { name := name, kind := kind, input := finished.1
            partitioner := partitioner }).addOperators [operator]
        (List.range outputs).foldl
          (fun current sender => current.fromReceiver [⟨some operator, sender⟩])
          placed
  | .union stream others =>
      (builder.finishAll (stream :: others)).map fun finished =>
        finished.2.fromReceiver finished.1
  | .drop stream =>
      (builder.finishPopTail stream).map Prod.snd

def run (builder : WorkerBuilder K V T S E) :
    List (StreamCall K V T S E) → Option (WorkerBuilder K V T S E)
  | [] => some builder
  | next :: rest => (builder.call next).bind fun after => after.run rest

def live : List StreamBuilder := builder.streams.reduceOption

/-- The operators, unless streams are in use: then how many. -/
def intoInner : Except Nat (List Nat) :=
  if builder.live = [] then .ok builder.operators
  else .error builder.live.length

end WorkerBuilder

/-! ### What a program keeps -/

section

variable {made : List (OperatorBuilder K V T S E)} {operators : List Nat}
  {live : List StreamBuilder} {loose : List Edge} {roots : Nat}

def inputOf (made : List (OperatorBuilder K V T S E)) (operator : Nat) :
    List Edge :=
  (made[operator]?.map OperatorBuilder.input).getD []

/-- These operators stand in an order in which each of them is behind those its
messages come from. -/
def Behind (made : List (OperatorBuilder K V T S E)) :
    List Nat → List Nat → Prop
  | _, [] => True
  | done, operator :: rest =>
      (∀ edge ∈ inputOf made operator, ∀ source ∈ edge.source,
        source ∈ done) ∧
      Behind made (done ++ [operator]) rest

theorem Behind.append {done first second : List Nat} :
    Behind made done (first ++ second) ↔
      Behind made done first ∧ Behind made (done ++ first) second := by
  induction first generalizing done with
  | nil => simp [Behind]
  | cons operator rest ih => simp [Behind, ih, and_assoc]

theorem Behind.mono {done more pending : List Nat} (subset : done ⊆ more)
    (behind : Behind made done pending) : Behind made more pending := by
  induction pending generalizing done more with
  | nil => trivial
  | cons operator rest ih =>
      refine ⟨fun edge member source isSource =>
        subset (behind.1 edge member source isSource), ih ?_ behind.2⟩
      exact List.append_subset.mpr
        ⟨fun _ member => List.mem_append_left _ (subset member),
          List.subset_append_right _ _⟩

theorem inputOf_append {operator : Nat} (isMade : operator < made.length)
    (new : OperatorBuilder K V T S E) :
    inputOf (made ++ [new]) operator = inputOf made operator := by
  simp [inputOf, List.getElem?_append_left isMade]

theorem inputOf_new (new : OperatorBuilder K V T S E) :
    inputOf (made ++ [new]) made.length = new.input := by
  simp [inputOf]

theorem Behind.make {done pending : List Nat}
    (isMade : ∀ operator ∈ pending, operator < made.length)
    (new : OperatorBuilder K V T S E) (behind : Behind made done pending) :
    Behind (made ++ [new]) done pending := by
  induction pending generalizing done with
  | nil => trivial
  | cons operator rest ih =>
      refine ⟨?_, ih (fun other member =>
        isMade other (List.mem_cons_of_mem _ member)) behind.2⟩
      rw [inputOf_append (isMade operator List.mem_cons_self)]
      exact behind.1

/-- The channel comes from one of these operators, which is not a sink. -/
def Comes (made : List (OperatorBuilder K V T S E)) (operators : List Nat)
    (edge : Edge) : Prop :=
  ∀ source ∈ edge.source, source ∈ operators ∧
    ∃ operator, made[source]? = some operator ∧ operator.kind.forwards = true

theorem Comes.mono {more : List Nat} {edge : Edge} (subset : operators ⊆ more)
    (comes : Comes made operators edge) : Comes made more edge :=
  fun source isSource =>
    ⟨subset (comes source isSource).1, (comes source isSource).2⟩

theorem Comes.make {edge : Edge} (new : OperatorBuilder K V T S E)
    (comes : Comes made operators edge) :
    Comes (made ++ [new]) operators edge := by
  intro source isSource
  obtain ⟨inside, operator, isMade, forwards⟩ := comes source isSource
  obtain ⟨inRange, -⟩ := List.getElem?_eq_some_iff.mp isMade
  exact ⟨inside, operator, by rw [List.getElem?_append_left inRange, isMade],
    forwards⟩

/-- The output and the root have given this sender away. -/
def Issued (made : List (OperatorBuilder K V T S E)) (roots : Nat)
    (edge : Edge) : Prop :=
  match edge.source with
  | none => edge.sender < roots
  | some source => source < made.length

theorem Issued.make {edge : Edge} (given : Issued made roots edge)
    (new : OperatorBuilder K V T S E) : Issued (made ++ [new]) roots edge := by
  unfold Issued at given ⊢
  split at given
  next => exact given
  next => simpa using Nat.lt_succ_of_lt given

/-- The channels of all operators and streams, and those which a call has at
hand. -/
def edges (made : List (OperatorBuilder K V T S E))
    (live : List StreamBuilder) (loose : List Edge) : List Edge :=
  made.flatMap OperatorBuilder.input ++ live.flatMap StreamBuilder.tail ++ loose

structure Sound (made : List (OperatorBuilder K V T S E))
    (operators : List Nat) (live : List StreamBuilder) (loose : List Edge)
    (roots : Nat) : Prop where
  ordered : Behind made [] operators
  pending : ∀ stream ∈ live, Behind made operators stream.operators
  inputs : ∀ operator ∈ made, operator.input ≠ [] ∧
    ∀ edge ∈ operator.input, ∀ source ∈ edge.source,
      ∃ from', made[source]? = some from' ∧ from'.kind.forwards = true
  tails : ∀ stream ∈ live, stream.tail ≠ [] ∧ ∀ edge ∈ stream.tail,
    Comes made (operators ++ stream.operators) edge
  atHand : ∀ edge ∈ loose, Comes made operators edge
  /-- Every operator is with the runtime or with one stream. -/
  all : (operators ++ live.flatMap StreamBuilder.operators).Perm
    (List.range made.length)
  /-- No channel is read twice. -/
  linear : (edges made live loose).Nodup
  given : ∀ edge ∈ edges made live loose, Issued made roots edge

namespace Sound

theorem empty : Sound ([] : List (OperatorBuilder K V T S E)) [] [] [] 0 := by
  constructor <;> simp [Behind, edges]

theorem perm {others : List StreamBuilder}
    (sound : Sound made operators live loose roots) (same : live.Perm others) :
    Sound made operators others loose roots := by
  have edgesSame : (edges made live loose).Perm (edges made others loose) :=
    ((same.flatMap_right _).append_left _).append_right _
  constructor
  case ordered => exact sound.ordered
  case pending =>
    exact fun stream member => sound.pending stream (same.mem_iff.mpr member)
  case inputs => exact sound.inputs
  case tails =>
    exact fun stream member => sound.tails stream (same.mem_iff.mpr member)
  case atHand => exact sound.atHand
  case all => exact ((same.flatMap_right _).append_left _).symm.trans sound.all
  case linear => exact edgesSame.nodup_iff.mp sound.linear
  case given =>
    exact fun edge member => sound.given edge (edgesSame.mem_iff.mpr member)

theorem finish {current : StreamBuilder}
    (sound : Sound made operators (current :: live) loose roots) :
    Sound made (operators ++ current.operators) live (loose ++ current.tail)
      roots := by
  have edgesSame : (edges made (current :: live) loose).Perm
      (edges made live (loose ++ current.tail)) := by
    simp only [edges, List.flatMap_cons, List.append_assoc]
    refine List.Perm.append_left _ ?_
    exact List.perm_append_comm.trans (by simp)
  constructor
  case ordered =>
    exact Behind.append.mpr ⟨sound.ordered,
      sound.pending current List.mem_cons_self⟩
  case pending =>
    exact fun stream member => (sound.pending stream
      (List.mem_cons_of_mem _ member)).mono (List.subset_append_left _ _)
  case inputs => exact sound.inputs
  case tails =>
    intro stream member
    obtain ⟨linked, comes⟩ := sound.tails stream (List.mem_cons_of_mem _ member)
    refine ⟨linked, fun edge inTail => (comes edge inTail).mono ?_⟩
    intro operator inside
    simp only [List.mem_append] at inside ⊢
    tauto
  case atHand =>
    intro edge member
    rcases List.mem_append.mp member with before | now
    · exact (sound.atHand edge before).mono (List.subset_append_left _ _)
    · exact (sound.tails current List.mem_cons_self).2 edge now
  case all =>
    have all := sound.all
    rwa [List.flatMap_cons, ← List.append_assoc] at all
  case linear => exact edgesSame.nodup_iff.mp sound.linear
  case given =>
    exact fun edge member => sound.given edge (edgesSame.mem_iff.mpr member)

theorem receiver (sound : Sound made operators live loose roots)
    (linked : loose ≠ []) :
    Sound made operators (⟨[], loose⟩ :: live) [] roots := by
  have edgesSame : (edges made live loose).Perm
      (edges made (⟨[], loose⟩ :: live) []) := by
    simp only [edges, List.flatMap_cons, List.append_nil, List.append_assoc]
    exact List.Perm.append_left _ List.perm_append_comm
  constructor
  case ordered => exact sound.ordered
  case pending =>
    rintro stream (_ | ⟨_, member⟩)
    · trivial
    · exact sound.pending stream member
  case inputs => exact sound.inputs
  case tails =>
    rintro stream (_ | ⟨_, member⟩)
    · exact ⟨linked, fun edge member => by simpa using sound.atHand edge member⟩
    · exact sound.tails stream member
  case atHand => simp
  case all => simpa using sound.all
  case linear => exact edgesSame.nodup_iff.mp sound.linear
  case given =>
    exact fun edge member => sound.given edge (edgesSame.mem_iff.mpr member)

theorem drop (sound : Sound made operators live loose roots) :
    Sound made operators live [] roots := by
  have fewer : (edges made live []).Sublist (edges made live loose) :=
    List.Sublist.append_left (List.nil_sublist _) _
  constructor
  case ordered => exact sound.ordered
  case pending => exact sound.pending
  case inputs => exact sound.inputs
  case tails => exact sound.tails
  case atHand => simp
  case all => exact sound.all
  case linear => exact sound.linear.sublist fewer
  case given => exact fun edge member => sound.given edge (fewer.subset member)

theorem output (sound : Sound made operators live [] roots) {edge : Edge}
    {more : Nat} (comes : Comes made operators edge)
    (fresh : edge ∉ edges made live []) (given : Issued made more edge)
    (grows : roots ≤ more) : Sound made operators live [edge] more := by
  have isGiven : ∀ other, Issued made roots other → Issued made more other := by
    intro other earlier
    unfold Issued at earlier ⊢
    split at earlier
    next => exact Nat.lt_of_lt_of_le earlier grows
    next => exact earlier
  have split : edges made live [edge] = edges made live [] ++ [edge] := by
    simp [edges]
  constructor
  case ordered => exact sound.ordered
  case pending => exact sound.pending
  case inputs => exact sound.inputs
  case tails => exact sound.tails
  case atHand =>
    intro other member
    rwa [List.mem_singleton.mp member]
  case all => exact sound.all
  case linear =>
    rw [split, List.nodup_append]
    refine ⟨sound.linear, List.nodup_singleton _, ?_⟩
    rintro other member _ isEdge rfl
    rw [List.mem_singleton.mp isEdge] at member
    exact fresh member
  case given =>
    intro other member
    rw [split] at member
    rcases List.mem_append.mp member with before | now
    · exact isGiven other (sound.given other before)
    · rwa [List.mem_singleton.mp now]

theorem inputs_make (sound : Sound made operators live loose roots)
    {new : OperatorBuilder K V T S E} (linked : new.input ≠ [])
    {others : List Nat} (comes : ∀ edge ∈ new.input, Comes made others edge) :
    ∀ operator ∈ made ++ [new], operator.input ≠ [] ∧
      ∀ edge ∈ operator.input, ∀ source ∈ edge.source,
        ∃ from', (made ++ [new])[source]? = some from' ∧
          from'.kind.forwards = true := by
  intro operator member
  rcases List.mem_append.mp member with before | now
  · obtain ⟨linked, comes⟩ := sound.inputs operator before
    refine ⟨linked, fun edge inInput source isSource => ?_⟩
    obtain ⟨from', isFrom, forwards⟩ := comes edge inInput source isSource
    obtain ⟨inRange, -⟩ := List.getElem?_eq_some_iff.mp isFrom
    exact ⟨from', by rw [List.getElem?_append_left inRange, isFrom], forwards⟩
  · rw [List.mem_singleton.mp now]
    exact ⟨linked, fun edge inInput source isSource =>
      (((comes edge inInput).make new) source isSource).2⟩

theorem place (sound : Sound made operators live loose roots)
    (linked : loose ≠ []) {new : OperatorBuilder K V T S E}
    (input : new.input = loose) :
    Sound (made ++ [new]) (operators ++ [made.length]) live [] roots := by
  have isMade : ∀ operator ∈ operators ++ live.flatMap StreamBuilder.operators,
      operator < made.length := fun operator member =>
    List.mem_range.mp (sound.all.mem_iff.mp member)
  have edgesSame : (edges (made ++ [new]) live []).Perm
      (edges made live loose) := by
    simp only [edges, List.flatMap_append, List.flatMap_cons, List.flatMap_nil,
      List.append_nil, List.append_assoc, input]
    exact List.Perm.append_left _ List.perm_append_comm
  constructor
  case ordered =>
    refine Behind.append.mpr ⟨sound.ordered.make (fun operator member =>
      isMade operator (List.mem_append_left _ member)) new, ?_, trivial⟩
    rw [inputOf_new, input]
    exact fun edge member source isSource => by
      simpa using (sound.atHand edge member source isSource).1
  case pending =>
    intro stream member
    refine ((sound.pending stream member).make (fun operator inside =>
      isMade operator ?_) new).mono (List.subset_append_left _ _)
    exact List.mem_append_right _ (List.mem_flatMap.mpr ⟨stream, member, inside⟩)
  case inputs =>
    exact sound.inputs_make (input ▸ linked) (input ▸ sound.atHand)
  case tails =>
    intro stream member
    obtain ⟨linked, comes⟩ := sound.tails stream member
    refine ⟨linked, fun edge inTail => ((comes edge inTail).make new).mono ?_⟩
    intro operator inside
    simp only [List.mem_append] at inside ⊢
    tauto
  case atHand => simp
  case all =>
    rw [List.length_append, List.length_singleton, List.range_succ,
      List.append_assoc]
    refine (List.Perm.append_left _ List.perm_append_comm).trans ?_
    rw [← List.append_assoc]
    exact sound.all.append_right _
  case linear => exact edgesSame.nodup_iff.mpr sound.linear
  case given =>
    intro edge member
    exact (sound.given edge (edgesSame.mem_iff.mp member)).make new

theorem extend {current : StreamBuilder}
    (sound : Sound made operators (current :: live) [] roots)
    {new : OperatorBuilder K V T S E} (input : new.input = current.tail)
    (forwards : new.kind.forwards = true) :
    Sound (made ++ [new]) operators
      (⟨current.operators ++ [made.length], [⟨some made.length, 0⟩]⟩ :: live) []
      roots := by
  have isMade : ∀ stream ∈ current :: live, ∀ operator ∈ stream.operators,
      operator < made.length := by
    intro stream member operator inside
    apply List.mem_range.mp
    apply sound.all.mem_iff.mp
    exact List.mem_append_right _ (List.mem_flatMap.mpr ⟨stream, member, inside⟩)
  have placed : ∀ operator ∈ operators, operator < made.length :=
    fun operator member => List.mem_range.mp
      (sound.all.mem_iff.mp (List.mem_append_left _ member))
  have edgesSame : (edges (made ++ [new])
      (⟨current.operators ++ [made.length], [⟨some made.length, 0⟩]⟩ ::
        live) []).Perm
      (⟨some made.length, 0⟩ :: edges made (current :: live) []) := by
    simp only [edges, List.flatMap_append, List.flatMap_cons, List.flatMap_nil,
      List.append_nil, List.append_assoc, input, List.cons_append,
      List.nil_append]
    exact (List.perm_middle.append_left _).trans List.perm_middle
  have fresh : (⟨some made.length, 0⟩ : Edge) ∉
      edges made (current :: live) [] := by
    intro member
    exact Nat.lt_irrefl _ (sound.given _ member)
  obtain ⟨linked, comes⟩ := sound.tails current List.mem_cons_self
  constructor
  case ordered => exact sound.ordered.make placed new
  case pending =>
    rintro stream (_ | ⟨_, member⟩)
    · refine Behind.append.mpr ⟨(sound.pending current List.mem_cons_self).make
        (isMade current List.mem_cons_self) new, ?_, trivial⟩
      rw [inputOf_new, input]
      exact fun edge inTail source isSource =>
        (comes edge inTail source isSource).1
    · exact (sound.pending stream (List.mem_cons_of_mem _ member)).make
        (isMade stream (List.mem_cons_of_mem _ member)) new
  case inputs => exact sound.inputs_make (input ▸ linked) (input ▸ comes)
  case tails =>
    rintro stream (_ | ⟨_, member⟩)
    · refine ⟨by simp, fun edge member source isSource => ?_⟩
      rw [List.mem_singleton.mp member] at isSource
      obtain rfl := Option.some.inj isSource
      exact ⟨by simp, new, by simp, forwards⟩
    · obtain ⟨linked, comes⟩ :=
        sound.tails stream (List.mem_cons_of_mem _ member)
      exact ⟨linked, fun edge inTail => (comes edge inTail).make new⟩
  case atHand => simp
  case all =>
    have all := sound.all
    simp only [List.flatMap_cons, List.append_assoc] at all ⊢
    rw [List.length_append, List.length_singleton, List.range_succ]
    refine List.Perm.trans ?_ (all.append_right _)
    simp only [List.append_assoc]
    refine List.Perm.append_left _ (List.Perm.append_left _ ?_)
    exact List.perm_append_comm
  case linear =>
    exact edgesSame.nodup_iff.mpr (List.nodup_cons.mpr ⟨fresh, sound.linear⟩)
  case given =>
    intro edge member
    rcases List.mem_cons.mp (edgesSame.mem_iff.mp member) with rfl | before
    · simp [Issued]
    · exact (sound.given edge before).make new

end Sound

end

/-! ### Every program -/

namespace WorkerBuilder

variable {builder next : WorkerBuilder K V T S E} {loose : List Edge}

def Sound (builder : WorkerBuilder K V T S E) (loose : List Edge) : Prop :=
  Stream.Sound builder.made builder.operators builder.live loose
    builder.rootSenders

theorem live_addStream (builder : WorkerBuilder K V T S E)
    (stream : StreamBuilder) :
    (stream :: builder.live).Perm (builder.addStream stream).live := by
  simpa [live, addStream, List.reduceOption_append] using
    (List.perm_append_singleton stream builder.live).symm

theorem reduceOption_set {α : Type} {items : List (Option α)} {index : Nat}
    {item : α} (found : items[index]? = some (some item)) :
    items.reduceOption.Perm (item :: (items.set index none).reduceOption) := by
  induction items generalizing index with
  | nil => simp at found
  | cons head rest ih =>
      cases index with
      | zero =>
          obtain rfl := Option.some.inj found
          rfl
      | succ index =>
          have later : _ := ih (show rest[index]? = _ by simpa using found)
          cases head with
          | none => simpa using later
          | some first =>
              exact (later.cons first).trans (List.Perm.swap _ _ _)

theorem take_eq_some {stream : Nat} {current : StreamBuilder}
    (took : builder.take stream = some (current, next)) :
    builder.live.Perm (current :: next.live) ∧ next.made = builder.made ∧
      next.operators = builder.operators ∧
      next.rootSenders = builder.rootSenders := by
  simp only [take] at took
  split at took
  next found isStream =>
    cases took
    exact ⟨reduceOption_set isStream, rfl, rfl, rfl⟩
  next => cases took

theorem Sound.finishPopTail {stream : Nat} {tail : List Edge}
    (sound : builder.Sound loose)
    (finished : builder.finishPopTail stream = some (tail, next)) :
    next.Sound (loose ++ tail) ∧ tail ≠ [] := by
  obtain ⟨⟨current, taken⟩, took, result⟩ := Option.map_eq_some_iff.mp finished
  cases result
  obtain ⟨live, made, operators, roots⟩ := take_eq_some took
  have isLive := Stream.Sound.perm sound live
  refine ⟨?_, (isLive.tails current List.mem_cons_self).1⟩
  have isFinished := isLive.finish
  rw [← made, ← operators, ← roots] at isFinished
  exact isFinished

theorem Sound.finishAll {streams : List Nat} {tails : List Edge}
    (sound : builder.Sound loose)
    (finished : builder.finishAll streams = some (tails, next)) :
    next.Sound (loose ++ tails) ∧ (streams ≠ [] → tails ≠ []) := by
  induction streams generalizing builder loose tails with
  | nil =>
      cases finished
      exact ⟨by simpa using sound, fun some => absurd rfl some⟩
  | cons stream rest ih =>
      simp only [WorkerBuilder.finishAll, Option.bind_eq_some_iff,
        Option.map_eq_some_iff] at finished
      obtain ⟨⟨tail, after⟩, first, ⟨others, last⟩, later, result⟩ := finished
      cases result
      obtain ⟨isSound, linked⟩ := sound.finishPopTail first
      refine ⟨?_, fun _ => List.append_ne_nil_of_left_ne_nil linked _⟩
      rw [← List.append_assoc]
      exact (ih isSound later).1

theorem Sound.receiver (sound : builder.Sound loose) (linked : loose ≠ []) :
    (builder.fromReceiver loose).Sound [] :=
  (Stream.Sound.receiver sound linked).perm (live_addStream _ _)

theorem Sound.append {stream : Nat} {name : String} {kind : Kind K V T S E}
    (forwards : kind.forwards = true) {extended : StreamBuilder}
    (sound : builder.Sound [])
    (appended : builder.append stream name kind = some (extended, next)) :
    (next.addStream extended).Sound [] := by
  obtain ⟨⟨current, taken⟩, took, result⟩ := Option.map_eq_some_iff.mp appended
  cases result
  obtain ⟨live, made, operators, roots⟩ := take_eq_some took
  have isLive := Stream.Sound.perm sound live
  rw [← made, ← operators, ← roots] at isLive
  exact (isLive.extend rfl forwards).perm (live_addStream _ _)

theorem Sound.sink {stream : Nat} {name : String} {kind : Kind K V T S E}
    {extended : StreamBuilder} (sound : builder.Sound [])
    (appended : builder.append stream name kind = some (extended, next)) :
    (next.addOperators extended.operators).Sound [] := by
  obtain ⟨⟨current, taken⟩, took, result⟩ := Option.map_eq_some_iff.mp appended
  cases result
  obtain ⟨live, made, operators, roots⟩ := take_eq_some took
  have isLive := Stream.Sound.perm sound live
  have linked := (isLive.tails current List.mem_cons_self).1
  rw [← made, ← operators, ← roots] at isLive
  have isInput : OperatorBuilder.input
      { name := name, kind := kind, input := current.tail
        partitioner := fullBroadcast } = current.tail := rfl
  have placed := isLive.finish.place linked isInput
  rw [List.append_assoc] at placed
  exact placed

theorem Sound.outputs {operator : Nat} (sound : builder.Sound [])
    (comes : ∀ sender,
      Comes builder.made builder.operators ⟨some operator, sender⟩)
    (isMade : operator < builder.made.length)
    (unused : ∀ sender,
      ⟨some operator, sender⟩ ∉ edges builder.made builder.live [])
    (outputs : Nat) :
    let after := (List.range outputs).foldl
      (fun current sender => current.fromReceiver [⟨some operator, sender⟩])
      builder
    after.Sound [] ∧ after.made = builder.made ∧
      after.operators = builder.operators ∧
      ∀ sender, outputs ≤ sender →
        ⟨some operator, sender⟩ ∉ edges after.made after.live [] := by
  induction outputs with
  | zero => exact ⟨sound, rfl, rfl, fun sender _ => unused sender⟩
  | succ outputs ih =>
      obtain ⟨before, made, operators, fresh⟩ := ih
      rw [List.range_succ, List.foldl_append]
      simp only [List.foldl_cons, List.foldl_nil]
      generalize reached : (List.range outputs).foldl _ builder = current at *
      have atHand : current.Sound [⟨some operator, outputs⟩] :=
        Stream.Sound.output before
          (by rw [made, operators]; exact comes outputs)
          (fresh outputs (Nat.le_refl _)) (by simpa [Issued, made] using isMade)
          (Nat.le_refl _)
      refine ⟨atHand.receiver (by simp), made, operators, ?_⟩
      intro sender later member
      have live := (live_addStream current
        ⟨[], [⟨some operator, outputs⟩]⟩).flatMap_right StreamBuilder.tail
      simp only [edges, List.append_nil, List.mem_append] at member
      rcases member with inMade | inLive
      · exact fresh sender (by omega)
          (by simp only [edges, List.append_nil, List.mem_append]; exact .inl inMade)
      · rw [WorkerBuilder.fromReceiver] at inLive
        rcases List.mem_append.mp (live.mem_iff.mpr inLive) with now | earlier
        · have same := List.mem_singleton.mp now
          simp at same
          omega
        · exact fresh sender (by omega)
            (by simp only [edges, List.append_nil, List.mem_append]; exact .inr earlier)

theorem Sound.split {stream : Nat} {name : String} {kind : Kind K V T S E}
    {forwards : kind.forwards = true}
    {partitioner : DataMessage K V T → Nat → Bool} {outputs : Nat}
    (sound : builder.Sound [])
    (called : builder.call
      (.split stream name kind forwards partitioner outputs) = some next) :
    next.Sound [] := by
  obtain ⟨⟨tail, finished⟩, popped, rfl⟩ := Option.map_eq_some_iff.mp called
  obtain ⟨isSound, linked⟩ := sound.finishPopTail popped
  rw [List.nil_append] at isSound
  let new : OperatorBuilder K V T S E :=
    { name := name, kind := kind, input := tail, partitioner := partitioner }
  have placed : ((finished.make new).addOperators
      [finished.made.length]).Sound [] :=
    Stream.Sound.place isSound linked rfl
  have comes : ∀ sender, Comes (finished.made ++ [new])
      (finished.operators ++ [finished.made.length])
      ⟨some finished.made.length, sender⟩ := by
    intro sender source isSource
    obtain rfl := Option.some.inj isSource
    exact ⟨by simp, new, by simp, forwards⟩
  refine (placed.outputs comes ?_ ?_ outputs).1
  · simp [make, addOperators]
  · intro sender member
    simp only [edges, make, addOperators, List.flatMap_append, List.flatMap_cons,
      List.flatMap_nil, List.append_nil] at member
    have earlier : (⟨some finished.made.length, sender⟩ : Edge) ∈
        edges finished.made finished.live tail := by
      simp only [edges, List.mem_append] at member ⊢
      tauto
    exact Nat.lt_irrefl _ (Stream.Sound.given isSound _ earlier)

theorem Sound.call {call : StreamCall K V T S E} (sound : builder.Sound [])
    (called : builder.call call = some next) : next.Sound [] := by
  cases call with
  | newStream =>
      obtain rfl := Option.some.inj called
      have fresh : (⟨none, builder.rootSenders⟩ : Edge) ∉
          edges builder.made builder.live [] := fun member =>
        Nat.lt_irrefl _ (Stream.Sound.given sound _ member)
      have comes : Comes builder.made builder.operators
          ⟨none, builder.rootSenders⟩ := fun _ isSource => by cases isSource
      have given : Issued builder.made (builder.rootSenders + 1)
          ⟨none, builder.rootSenders⟩ := Nat.lt_succ_self _
      have atHand := Stream.Sound.output sound comes fresh given (Nat.le_succ _)
      exact (atHand.receiver (by simp)).perm (live_addStream _ _)
  | append stream name kind forwards =>
      obtain ⟨⟨extended, after⟩, appended, rfl⟩ :=
        Option.map_eq_some_iff.mp called
      exact sound.append forwards appended
  | sink stream name kind =>
      obtain ⟨⟨extended, after⟩, appended, rfl⟩ :=
        Option.map_eq_some_iff.mp called
      exact sound.sink appended
  | split stream name kind forwards partitioner outputs =>
      exact sound.split called
  | union stream others =>
      obtain ⟨⟨tails, after⟩, finished, rfl⟩ :=
        Option.map_eq_some_iff.mp called
      obtain ⟨isSound, linked⟩ := sound.finishAll finished
      rw [List.nil_append] at isSound
      exact isSound.receiver (linked (by simp))
  | drop stream =>
      obtain ⟨⟨tail, after⟩, popped, rfl⟩ := Option.map_eq_some_iff.mp called
      exact Stream.Sound.drop (sound.finishPopTail popped).1

theorem Sound.run {calls : List (StreamCall K V T S E)}
    (sound : builder.Sound []) (ran : builder.run calls = some next) :
    next.Sound [] := by
  induction calls generalizing builder with
  | nil =>
      obtain rfl := Option.some.inj ran
      exact sound
  | cons call rest ih =>
      obtain ⟨after, called, later⟩ := Option.bind_eq_some_iff.mp ran
      exact ih (sound.call called) later

/-! ### The graph -/

def placed (builder : WorkerBuilder K V T S E) (position : Nat) :
    Option (OperatorBuilder K V T S E) :=
  builder.operators[position]?.bind fun operator => builder.made[operator]?

theorem Sound.placed (sound : builder.Sound []) {position : Nat}
    (inRange : position < builder.operators.length) :
    ∃ part, builder.placed position = some part ∧ part ∈ builder.made := by
  have isMade : builder.operators[position] < builder.made.length := by
    apply List.mem_range.mp
    apply (Stream.Sound.all sound).mem_iff.mp
    exact List.mem_append_left _ (List.getElem_mem inRange)
  exact ⟨builder.made[builder.operators[position]],
    by simp [WorkerBuilder.placed, inRange, isMade], List.getElem_mem isMade⟩

theorem behind_at {made : List (OperatorBuilder K V T S E)}
    {done operators : List Nat} (behind : Behind made done operators)
    {position operator : Nat} (isAt : operators[position]? = some operator) :
    ∀ edge ∈ inputOf made operator, ∀ source ∈ edge.source,
      source ∈ done ++ operators.take position := by
  induction operators generalizing done position with
  | nil => simp at isAt
  | cons first rest ih =>
      cases position with
      | zero =>
          obtain rfl := Option.some.inj isAt
          simpa using behind.1
      | succ position =>
          intro edge member source isSource
          have later := ih behind.2 (by simpa using isAt) edge member source
            isSource
          simpa using later

theorem idxOf_lt_of_mem_take {items : List Nat} {item count : Nat}
    (member : item ∈ items.take count) : items.idxOf item < count := by
  have first := List.idxOf_lt_length_of_mem member
  rw [← List.take_append_drop count items, List.idxOf_append_of_mem member]
  exact Nat.lt_of_lt_of_le first (by simp)

/-- The messages of a source come from an operator which stands before. -/
theorem Sound.source (sound : builder.Sound []) {position : Nat}
    {part : OperatorBuilder K V T S E}
    (isPlaced : builder.placed position = some part) {edge : Edge}
    (member : edge ∈ part.input) {source : Nat}
    (isSource : edge.source = some source) :
    builder.operators.idxOf source < position ∧
      ∃ from', builder.placed (builder.operators.idxOf source) = some from' ∧
        from'.kind.forwards = true := by
  obtain ⟨operator, isAt, isMade⟩ := Option.bind_eq_some_iff.mp isPlaced
  have inInput : edge ∈ inputOf builder.made operator := by
    simpa [inputOf, isMade] using member
  have before := behind_at (Stream.Sound.ordered sound) isAt edge inInput source
    isSource
  rw [List.nil_append] at before
  have found := List.mem_of_mem_take before
  obtain ⟨from', isFrom, forwards⟩ := (Stream.Sound.inputs sound part
    (List.mem_of_getElem? isMade)).2 edge member source isSource
  refine ⟨idxOf_lt_of_mem_take before, from', ?_, forwards⟩
  simp [WorkerBuilder.placed, List.getElem?_eq_getElem
    (List.idxOf_lt_length_of_mem found), isFrom]

/-- The graph of a program; the last argument stands at positions which do not
exist. -/
def graph (builder : WorkerBuilder K V T S E) (sound : builder.Sound [])
    (hashOpName : String → OperatorId) (beyond : Kind K V T S E) :
    Graph K V T S E where
  size := builder.operators.length
  name position := ((builder.placed position).map OperatorBuilder.name).getD ""
  operatorId position := hashOpName
    (((builder.placed position).map OperatorBuilder.name).getD "")
  kind position := ((builder.placed position).map OperatorBuilder.kind).getD
    beyond
  upstream position :=
    ((builder.placed position).map fun part => part.input.map fun edge =>
      edge.source.map fun source => builder.operators.idxOf source).getD []
  carries position channel record :=
    match (builder.placed position).bind fun part => part.input[channel]? with
    | some ⟨some source, sender⟩ =>
        (builder.made[source]?.map fun part => part.partitioner record sender).getD
          true
    | _ => true
  linked position inRange := by
    obtain ⟨part, isPlaced, member⟩ := sound.placed inRange
    simpa [isPlaced] using (Stream.Sound.inputs sound part member).1
  earlier position inRange source member := by
    obtain ⟨part, isPlaced, -⟩ := sound.placed inRange
    simp only [isPlaced, Option.map_some, Option.getD_some, List.mem_map,
      Option.map_eq_some_iff] at member
    obtain ⟨edge, inInput, made, isSource, rfl⟩ := member
    exact (sound.source isPlaced inInput isSource).1
  forwards position inRange source member := by
    obtain ⟨part, isPlaced, -⟩ := sound.placed inRange
    simp only [isPlaced, Option.map_some, Option.getD_some, List.mem_map,
      Option.map_eq_some_iff] at member
    obtain ⟨edge, inInput, made, isSource, rfl⟩ := member
    obtain ⟨from', isFrom, forwards⟩ :=
      (sound.source isPlaced inInput isSource).2
    simpa [isFrom] using forwards

/-- Whatever a program does with its streams, once none of them is in use every
operator it has made is scheduled once, at a position of a graph: behind the
operators its messages come from and linked to at least one channel, with no
channel read by two operators. -/
theorem program_graph {calls : List (StreamCall K V T S E)}
    (ran : ({} : WorkerBuilder K V T S E).run calls = some builder)
    {operators : List Nat} (finished : builder.intoInner = .ok operators)
    (hashOpName : String → OperatorId) (beyond : Kind K V T S E) :
    ∃ graph : Graph K V T S E,
      graph.size = builder.made.length ∧
      operators.Perm (List.range builder.made.length) ∧
      (builder.made.flatMap OperatorBuilder.input).Nodup ∧
      ∀ position operator, operators[position]? = some operator →
        ∃ part, builder.made[operator]? = some part ∧
          graph.name position = part.name ∧
          graph.operatorId position = hashOpName part.name ∧
          graph.kind position = part.kind ∧
          graph.upstream position = (part.input.map fun edge =>
            edge.source.map fun source => operators.idxOf source) ∧
          ∀ channel source sender record from',
            part.input[channel]? = some ⟨some source, sender⟩ →
            builder.made[source]? = some from' →
              graph.carries position channel record =
                from'.partitioner record sender := by
  have empty : ({} : WorkerBuilder K V T S E).Sound [] := Stream.Sound.empty
  have sound : builder.Sound [] := empty.run ran
  simp only [intoInner] at finished
  split at finished
  next unused =>
    obtain rfl := Except.ok.inj finished
    have all := Stream.Sound.all sound
    have linear := Stream.Sound.linear sound
    rw [unused, List.flatMap_nil, List.append_nil] at all
    simp only [edges, unused, List.flatMap_nil, List.append_nil] at linear
    refine ⟨builder.graph sound hashOpName beyond,
      by simpa [graph] using all.length_eq, all, linear, ?_⟩
    intro position operator isAt
    have isMade : operator < builder.made.length := List.mem_range.mp
      (all.mem_iff.mp (List.mem_of_getElem? isAt))
    have isPlaced : builder.placed position =
        some builder.made[operator] := by
      simp [WorkerBuilder.placed, isAt, isMade]
    refine ⟨builder.made[operator], List.getElem?_eq_getElem isMade, ?_⟩
    simp only [graph, isPlaced, Option.map_some, Option.getD_some,
      Option.bind_some]
    refine ⟨trivial, trivial, trivial, trivial, ?_⟩
    intro channel source sender record from' isEdge isFrom
    simp [isEdge, isFrom]
  next => cases finished

end WorkerBuilder

/-! Two sources in one stream, which is split into two sinks. -/

def plainKind (forwards : Bool) : Kind Nat Nat Nat Unit Unit :=
  .logic
    { onSchedule := fun _ state => (state, [])
      onMessage := fun _ state => (state, [])
      persist := none
      forwards := forwards
      scheduleUncounted := by simp
      messageUncounted := by simp } ()

def diamond : List (StreamCall Nat Nat Nat Unit Unit) :=
  [.newStream, .append 0 "left" (plainKind true) rfl,
    .newStream, .append 2 "right" (plainKind true) rfl,
    .union 3 [1],
    .split 4 "split" (plainKind true) rfl
      (fun message sender => message.value % 2 = sender) 2,
    .sink 6 "odd" (plainKind false), .sink 5 "even" (plainKind false)]

@[irreducible] def diamondBuilder : WorkerBuilder Nat Nat Nat Unit Unit :=
  (({} : WorkerBuilder Nat Nat Nat Unit Unit).run diamond).getD {}

/-- The stream which was made later is united first. -/
theorem diamond_graph :
    diamondBuilder.operators = [1, 0, 2, 3, 4] ∧
    ∃ graph : Graph Nat Nat Nat Unit Unit,
      graph.size = diamondBuilder.made.length ∧
      [1, 0, 2, 3, 4].Perm (List.range diamondBuilder.made.length) ∧
      (diamondBuilder.made.flatMap OperatorBuilder.input).Nodup ∧
      ∀ position operator, [1, 0, 2, 3, 4][position]? = some operator →
        ∃ part, diamondBuilder.made[operator]? = some part ∧
          graph.name position = part.name ∧
          graph.operatorId position = part.name.length ∧
          graph.kind position = part.kind ∧
          graph.upstream position = (part.input.map fun edge =>
            edge.source.map fun source => [1, 0, 2, 3, 4].idxOf source) ∧
          ∀ channel source sender record from',
            part.input[channel]? = some ⟨some source, sender⟩ →
            diamondBuilder.made[source]? = some from' →
              graph.carries position channel record =
                from'.partitioner record sender := by
  have ran : ({} : WorkerBuilder Nat Nat Nat Unit Unit).run diamond =
      some diamondBuilder := by
    unfold diamondBuilder
    rfl
  have finished : diamondBuilder.intoInner = .ok [1, 0, 2, 3, 4] := by
    unfold diamondBuilder
    rfl
  exact ⟨by unfold diamondBuilder; rfl,
    WorkerBuilder.program_graph ran finished String.length (plainKind true)⟩

end Malstrom.Stream
