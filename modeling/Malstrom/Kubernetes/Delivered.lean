import Malstrom.Kubernetes.Transport

namespace Malstrom.Kubernetes.Communication.Network

open Data

variable {network : Network} {bufferCapacity : Nat}

/-! What arrives at the other end of a transport, over whole runs. -/

/-! ### Runs -/

structure Goes (task changed : Task) : Prop where
  streaming : task.stage = .streaming → changed.stage = .streaming
  forward : task.forward.isSome = true → changed.forward.isSome = true

theorem step_send (bufferCapacity : Nat) (network : Network)
    (sender : Endpoint) (content : Bytes) :
    (network.step bufferCapacity (.send sender content)).tasks =
        network.tasks ∧
      (network.step bufferCapacity (.send sender content)).transports =
        network.transports := by
  simp only [step, send]
  cases network.transports.get? sender with
  | none => exact ⟨rfl, rfl⟩
  | some transport =>
      simp only
      by_cases receiver : network.hasReceiver transport.outboundSender = true
      · rw [if_pos receiver]
        by_cases room : (network.queue transport.outboundSender).length <
            bufferCapacity
        · rw [if_pos room]
          exact ⟨rfl, rfl⟩
        · rw [if_neg room]
          exact ⟨rfl, rfl⟩
      · rw [if_neg receiver]
        exact ⟨rfl, rfl⟩

theorem step_recv (network : Network) (receiver : Endpoint) :
    (network.recv receiver).2.tasks = network.tasks ∧
      (network.recv receiver).2.transports = network.transports := by
  unfold recv
  repeat' split
  all_goals exact ⟨rfl, rfl⟩

/-- An event which is neither a connect nor a drop keeps the transports and
changes one task or none. -/
theorem step_task (bufferCapacity : Nat) (network : Network) {event : Event}
    (connects : ∀ endpoint, event ≠ .connect endpoint)
    (drops : ∀ endpoint, event ≠ .drop endpoint) :
    (network.step bufferCapacity event).transports = network.transports ∧
      ((network.step bufferCapacity event).tasks = network.tasks ∨
        ∃ number task changed, network.tasks[number]? = some task ∧
          (network.step bufferCapacity event).tasks =
            (network.setTask number changed).tasks ∧
          changed.endpoint = task.endpoint ∧
          ((∀ kept, event ≠ .lose number kept) → Goes task changed)) := by
  cases event with
  | connect endpoint => exact absurd rfl (connects endpoint)
  | drop endpoint => exact absurd rfl (drops endpoint)
  | send sender content =>
      obtain ⟨tasks, transports⟩ :=
        step_send bufferCapacity network sender content
      exact ⟨transports, .inl tasks⟩
  | recv receiver =>
      obtain ⟨tasks, transports⟩ := step_recv network receiver
      exact ⟨transports, .inl tasks⟩
  | reach number =>
      simp only [step, reach]
      cases found : network.tasks[number]? with
      | none => exact ⟨rfl, .inl rfl⟩
      | some task =>
          simp only
          split
          next connecting =>
            refine ⟨rfl, .inr ⟨number, task, _, found, rfl, rfl, fun _ => ?_⟩⟩
            exact ⟨fun _ => rfl, id⟩
          next => exact ⟨rfl, .inl rfl⟩
  | accept number =>
      simp only [step, accept]
      cases found : network.tasks[number]? with
      | none => exact ⟨rfl, .inl rfl⟩
      | some task =>
          simp only [Endpoint.serve_metadata]
          split
          next => exact ⟨rfl, .inl rfl⟩
          next =>
            obtain ⟨-, tasks, transports, -⟩ := entry_spec network
              task.endpoint.counterpart.inbound
            refine ⟨transports, .inr ⟨number, task,
              { task with
                forward := some ⟨task.endpoint.counterpart.inbound, none⟩ },
              found, ?_, rfl, fun _ => ⟨id, fun _ => rfl⟩⟩⟩
            simp only [setTask, tasks]
  | pull number =>
      simp only [step, pull]
      cases found : network.tasks[number]? with
      | none => exact ⟨rfl, .inl rfl⟩
      | some task =>
          simp only
          split
          next =>
            split
            next => exact ⟨rfl, .inl rfl⟩
            next letter rest _ =>
              exact ⟨rfl, .inr ⟨number, task,
                { task with line := task.line ++ [letter] }, found, rfl, rfl,
                fun _ => ⟨id, id⟩⟩⟩
          next => exact ⟨rfl, .inl rfl⟩
  | carry number =>
      simp only [step, carry]
      cases found : network.tasks[number]? with
      | none => exact ⟨rfl, .inl rfl⟩
      | some task =>
          simp only
          split
          next inbound letter rest _ _ =>
            exact ⟨rfl, .inr ⟨number, task,
              { task with
                line := rest, forward := some ⟨inbound, some letter⟩ },
              found, rfl, rfl, fun _ => ⟨id, fun _ => rfl⟩⟩⟩
          next => exact ⟨rfl, .inl rfl⟩
  | deposit number =>
      simp only [step, deposit]
      cases found : network.tasks[number]? with
      | none => exact ⟨rfl, .inl rfl⟩
      | some task =>
          simp only
          split
          next inbound letter _ =>
            split
            · exact ⟨rfl, .inr ⟨number, task,
                { task with forward := some ⟨inbound, none⟩ }, found, rfl, rfl,
                fun _ => ⟨id, fun _ => rfl⟩⟩⟩
            · exact ⟨rfl, .inl rfl⟩
          next => exact ⟨rfl, .inl rfl⟩
  | lose number kept =>
      simp only [step, lose]
      cases found : network.tasks[number]? with
      | none => exact ⟨rfl, .inl rfl⟩
      | some task =>
          exact ⟨rfl, .inr ⟨number, task,
            { task with stage := .ended, line := task.line.take kept }, found,
            rfl, rfl, fun holds => absurd rfl (holds kept)⟩⟩

def connected (events : List Event) : List Endpoint :=
  events.filterMap fun event =>
    match event with
    | .connect endpoint => some endpoint
    | _ => none

theorem connected_append (first second : List Event) :
    connected (first ++ second) = connected first ++ connected second :=
  List.filterMap_append

theorem connected_cons (event : Event) (rest : List Event) :
    connected (event :: rest) = connected [event] ++ connected rest :=
  connected_append [event] rest

theorem endpoints_step (bufferCapacity : Nat) (network : Network)
    (event : Event) :
    (network.step bufferCapacity event).tasks.map Task.endpoint =
      network.tasks.map Task.endpoint ++ connected [event] := by
  have kept (connects : ∀ endpoint, event ≠ .connect endpoint)
      (drops : ∀ endpoint, event ≠ .drop endpoint) :
      (network.step bufferCapacity event).tasks.map Task.endpoint =
        network.tasks.map Task.endpoint := by
    obtain ⟨-, same | ⟨number, task, changed, found, tasks, keeps, -⟩⟩ :=
      step_task bufferCapacity network connects drops
    · rw [same]
    · rw [tasks, endpoints_setTask found keeps]
  cases event with
  | connect endpoint =>
      simp only [step, connect_eq, openTransport, spawn,
        (entry_spec _ _).2.1, List.map_append]
      rfl
  | drop endpoint => exact (List.append_nil _).symm
  | send | recv | reach | accept | pull | carry | deposit | lose =>
      refine (kept ?_ ?_).trans (List.append_nil _).symm
      · exact fun _ same => by cases same
      · exact fun _ same => by cases same

def runMoves (bufferCapacity : Nat) (endpoint : Endpoint) (network : Network) :
    List Event → List (Conveyor.Move Letter)
  | [] => []
  | event :: rest =>
      network.moves endpoint event ++
        runMoves bufferCapacity endpoint (network.step bufferCapacity event)
          rest

theorem Wired.run (wired : network.Wired) (bufferCapacity : Nat)
    {events : List Event}
    (once : (network.tasks.map Task.endpoint ++ connected events).Nodup) :
    (network.run bufferCapacity events).Wired ∧
      ∀ endpoint, (network.run bufferCapacity events).belt endpoint =
        (network.belt endpoint).run bufferCapacity
          (runMoves bufferCapacity endpoint network events) := by
  induction events generalizing network with
  | nil => exact ⟨wired, fun _ => rfl⟩
  | cons event rest ih =>
      rw [connected_cons, ← List.append_assoc] at once
      have moves : Moves bufferCapacity network
          (network.step bufferCapacity event) event := by
        apply wired.step
        rintro endpoint rfl task member rfl
        have apart := (List.nodup_append.mp once).1
        exact (List.nodup_append.mp apart).2.2 _ (List.mem_map_of_mem member) _
          (List.mem_singleton_self _) rfl
      rw [← endpoints_step bufferCapacity] at once
      obtain ⟨still, belts⟩ := ih moves.wired once
      refine ⟨still, fun endpoint => (belts endpoint).trans ?_⟩
      rw [moves.belt, runMoves, Conveyor.run_append]

theorem belt_sound (bufferCapacity : Nat) {events : List Event}
    (once : (connected events).Nodup) (endpoint : Endpoint) :
    ((new.run bufferCapacity events).belt endpoint).Sound bufferCapacity := by
  rw [(Wired.new.run bufferCapacity once).2, belt_new]
  exact Conveyor.Sound.empty.run _

/-- Whatever connections are lost, an endpoint receives what the other end has
sent, in order and without a gap, and nothing else. As long as its stream holds,
everything the other end has sent is received or in one of the buffers. -/
theorem transports_reliable (bufferCapacity : Nat) {events : List Event}
    (once : (connected events).Nodup) (endpoint : Endpoint) :
    let network := new.run bufferCapacity events
    let belt := network.belt endpoint
    network.received endpoint.counterpart <+: network.sent endpoint ∧
      (∀ letter ∈ network.received endpoint.counterpart,
        letter.sender = endpoint) ∧
      (belt.broken = false →
        network.received endpoint.counterpart ++ belt.inbound ++
            belt.carried.toList ++ belt.line ++ belt.outbound =
          network.sent endpoint) ∧
      belt.inbound.length ≤ bufferCapacity ∧
      belt.outbound.length ≤ bufferCapacity := by
  intro network belt
  have wired := (Wired.new.run bufferCapacity once).1
  have sound := belt_sound bufferCapacity once endpoint
  have isPrefix : network.received endpoint.counterpart <+:
      network.sent endpoint := sound.received
  refine ⟨isPrefix, fun letter member => ?_, sound.whole, sound.inboundFits,
    sound.outboundFits⟩
  exact wired.signed endpoint letter (isPrefix.subset member)

/-- Operator 7 of worker 0 sends to its like on worker 1, whose own stream
breaks. -/
def brokenTrace : List Event :=
  [.connect (.operatorToOperator 0 1 7), .connect (.operatorToOperator 1 0 7),
    .send (.operatorToOperator 0 1 7) [1],
    .send (.operatorToOperator 0 1 7) [2], .reach 0, .pull 0,
    .send (.operatorToOperator 0 1 7) [3], .accept 0, .carry 0, .lose 1 0]

/-- The second message has found no room in the queue. -/
theorem broken_reliable :
    (new.run 1 brokenTrace).received (.operatorToOperator 1 0 7) <+:
        (new.run 1 brokenTrace).sent (.operatorToOperator 0 1 7) ∧
      ((new.run 1 brokenTrace).sent (.operatorToOperator 0 1 7)).map
        Letter.content = [[1], [3]] :=
  ⟨(transports_reliable 1 (by decide) (.operatorToOperator 0 1 7)).1,
    by decide⟩

/-! ### Everything arrives -/

/-- The stream of the endpoint stands, and the other end can receive. -/
structure Standing (network : Network) (number : Nat) (endpoint : Endpoint) :
    Prop where
  task : ∃ task, network.tasks[number]? = some task ∧
    task.endpoint = endpoint ∧ task.stage = .streaming ∧
    task.forward.isSome = true
  receiver : (network.transports.get? endpoint.counterpart).isSome = true

/-- Both tasks of a stream and its receiver have their turn, and nothing is
lost. -/
structure Turns (number : Nat) (endpoint : Endpoint) (events : List Event) :
    Prop where
  pulls : .pull number ∈ events
  carries : .carry number ∈ events
  deposits : .deposit number ∈ events
  receives : .recv endpoint.counterpart ∈ events
  holds : ∀ kept, .lose number kept ∉ events
  keeps : .drop endpoint.counterpart ∉ events

section

variable {number : Nat} {endpoint : Endpoint} {event : Event}
  {events : List Event}

theorem Standing.step (standing : network.Standing number endpoint)
    (holds : ∀ kept, event ≠ .lose number kept)
    (keeps : event ≠ .drop endpoint.counterpart) :
    (network.step bufferCapacity event).Standing number endpoint := by
  obtain ⟨task, found, isEndpoint, streaming, reads⟩ := standing.task
  have other (connects : ∀ endpoint, event ≠ .connect endpoint)
      (drops : ∀ endpoint, event ≠ .drop endpoint) :
      (network.step bufferCapacity event).Standing number endpoint := by
    obtain ⟨transports, same |
        ⟨index, old, changed, isOld, tasks, same, goes⟩⟩ :=
      step_task bufferCapacity network connects drops
    · exact ⟨⟨task, same ▸ found, isEndpoint, streaming, reads⟩,
        transports ▸ standing.receiver⟩
    · refine ⟨?_, transports ▸ standing.receiver⟩
      rw [tasks, getElem?_setTask isOld]
      split
      next isIndex =>
        subst isIndex
        cases found.symm.trans isOld
        have onward := goes holds
        exact ⟨changed, rfl, same.trans isEndpoint, onward.streaming streaming,
          onward.forward reads⟩
      next => exact ⟨task, found, isEndpoint, streaming, reads⟩
  cases event with
  | connect sender =>
      have below : number < network.tasks.length :=
        (List.getElem?_eq_some_iff.mp found).1
      simp only [Network.step, connect_eq, openTransport, spawn]
      refine ⟨⟨task, ?_, isEndpoint, streaming, reads⟩, ?_⟩
      · simp only [(entry_spec _ _).2.1]
        rwa [List.getElem?_append_left below]
      · simp only [(entry_spec _ _).2.2.1, IndexMap.get?_insert]
        split
        · rfl
        · exact standing.receiver
  | drop sender =>
      refine ⟨standing.task, ?_⟩
      simp only [Network.step, IndexMap.get?_swapRemove]
      split
      next same => exact absurd (congrArg Event.drop same.symm) keeps
      next => exact standing.receiver
  | send | recv | reach | accept | pull | carry | deposit | lose =>
      apply other
      · exact fun _ same => by cases same
      · exact fun _ same => by cases same

theorem Standing.cons {rest : List Event}
    (standing : network.Standing number endpoint)
    (holds : ∀ kept, .lose number kept ∉ event :: rest)
    (keeps : .drop endpoint.counterpart ∉ event :: rest) :
    (network.step bufferCapacity event).Standing number endpoint ∧
      (∀ kept, .lose number kept ∉ rest) ∧
      .drop endpoint.counterpart ∉ rest := by
  refine ⟨standing.step ?_ ?_, ?_, ?_⟩
  · rintro kept rfl
    exact holds kept List.mem_cons_self
  · rintro rfl
    exact keeps List.mem_cons_self
  · exact fun kept lost => holds kept (List.mem_cons_of_mem _ lost)
  · exact fun dropped => keeps (List.mem_cons_of_mem _ dropped)

theorem mem_runMoves {move : Conveyor.Move Letter}
    (shows : ∀ network : Network, network.Standing number endpoint →
      move ∈ network.moves endpoint event)
    (standing : network.Standing number endpoint)
    (holds : ∀ kept, .lose number kept ∉ events)
    (keeps : .drop endpoint.counterpart ∉ events) (member : event ∈ events) :
    move ∈ runMoves bufferCapacity endpoint network events := by
  induction events generalizing network with
  | nil => cases member
  | cons first rest ih =>
      rw [runMoves, List.mem_append]
      rcases List.mem_cons.mp member with rfl | inRest
      · exact .inl (shows network standing)
      · obtain ⟨stands, holdsRest, keepsRest⟩ := standing.cons holds keeps
        exact .inr (ih stands holdsRest keepsRest inRest)

theorem Standing.moves_keep (standing : network.Standing number endpoint)
    (apart : (network.tasks.map Task.endpoint).Nodup)
    (holds : ∀ kept, event ≠ .lose number kept)
    {move : Conveyor.Move Letter}
    (member : move ∈ network.moves endpoint event) : move.Keeps := by
  cases event with
  | connect | drop | reach | accept => cases member
  | recv receiver =>
      simp only [moves] at member
      split at member
      next =>
        rw [List.mem_singleton.mp member]
        trivial
      next => cases member
  | send sender content | pull index | carry index | deposit index =>
      simp only [moves] at member
      split at member
      next => cases member
      next =>
        split at member
        next =>
          rw [List.mem_singleton.mp member]
          trivial
        next => cases member
  | lose index kept =>
      simp only [moves] at member
      split at member
      next => cases member
      next other found =>
        split at member
        next same =>
          obtain ⟨task, isTask, isEndpoint, -⟩ := standing.task
          have below : index < (network.tasks.map Task.endpoint).length := by
            rw [List.length_map]
            exact (List.getElem?_eq_some_iff.mp found).1
          have isIndex : index = number := by
            apply (List.getElem?_inj below apart).mp
            rw [List.getElem?_map, List.getElem?_map, found, isTask]
            exact congrArg some (same.trans isEndpoint.symm)
          subst isIndex
          exact absurd rfl (holds kept)
        next => cases member

theorem runMoves_keep
    (once : (network.tasks.map Task.endpoint ++ connected events).Nodup)
    (standing : network.Standing number endpoint)
    (holds : ∀ kept, .lose number kept ∉ events)
    (keeps : .drop endpoint.counterpart ∉ events) :
    ∀ move ∈ runMoves bufferCapacity endpoint network events, move.Keeps := by
  induction events generalizing network with
  | nil => intro move member; cases member
  | cons event rest ih =>
      rw [connected_cons, ← List.append_assoc] at once
      have apart := (List.nodup_append.mp (List.nodup_append.mp once).1).1
      rw [← endpoints_step bufferCapacity] at once
      obtain ⟨stands, holdsRest, keepsRest⟩ := standing.cons holds keeps
      intro move member
      rcases List.mem_append.mp member with first | later
      · refine standing.moves_keep apart ?_ first
        rintro kept rfl
        exact holds kept List.mem_cons_self
      · exact ih once stands holdsRest keepsRest move later

theorem Turns.round (turns : Turns number endpoint events)
    (once : (network.tasks.map Task.endpoint ++ connected events).Nodup)
    (standing : network.Standing number endpoint) :
    Conveyor.Round (runMoves bufferCapacity endpoint network events) where
  keeps := runMoves_keep once standing turns.holds turns.keeps
  pulls := by
    apply mem_runMoves _ standing turns.holds turns.keeps turns.pulls
    intro other stands
    obtain ⟨task, found, isEndpoint, streaming, -⟩ := stands.task
    simp [moves, found, isEndpoint, streaming]
  carries := by
    apply mem_runMoves _ standing turns.holds turns.keeps turns.carries
    intro other stands
    obtain ⟨task, found, isEndpoint, -, reads⟩ := stands.task
    simp [moves, found, isEndpoint, reads]
  deposits := by
    apply mem_runMoves _ standing turns.holds turns.keeps turns.deposits
    intro other stands
    obtain ⟨task, found, isEndpoint, -, reads⟩ := stands.task
    simp [moves, found, isEndpoint, reads]
  takes := by
    apply mem_runMoves _ standing turns.holds turns.keeps turns.receives
    intro other stands
    simp [moves, stands.receiver]

theorem Standing.run (standing : network.Standing number endpoint)
    (holds : ∀ kept, .lose number kept ∉ events)
    (keeps : .drop endpoint.counterpart ∉ events) :
    (network.run bufferCapacity events).Standing number endpoint := by
  induction events generalizing network with
  | nil => exact standing
  | cons event rest ih =>
      obtain ⟨stands, holdsRest, keepsRest⟩ := standing.cons holds keeps
      exact ih stands holdsRest keepsRest

end

theorem runMoves_append (network : Network) (endpoint : Endpoint)
    (first second : List Event) :
    runMoves bufferCapacity endpoint network (first ++ second) =
      runMoves bufferCapacity endpoint network first ++
        runMoves bufferCapacity endpoint (network.run bufferCapacity first)
          second := by
  induction first generalizing network with
  | nil => rfl
  | cons event rest ih =>
      rw [List.cons_append, runMoves, runMoves, ih, List.append_assoc]
      rfl

theorem endpoints_run (bufferCapacity : Nat) (network : Network)
    (events : List Event) :
    (network.run bufferCapacity events).tasks.map Task.endpoint =
      network.tasks.map Task.endpoint ++ connected events := by
  induction events generalizing network with
  | nil => exact (List.append_nil _).symm
  | cons event rest ih =>
      rw [connected_cons, ← List.append_assoc, ← endpoints_step bufferCapacity]
      exact ih _

theorem Standing.rounds (bufferCapacity : Nat) {number : Nat}
    {endpoint : Endpoint} (standing : network.Standing number endpoint)
    {rounds : List (List Event)} (once : (network.tasks.map Task.endpoint ++
      connected rounds.flatten).Nodup)
    (turns : ∀ round ∈ rounds, Turns number endpoint round) :
    ∃ moves : List (List (Conveyor.Move Letter)),
      runMoves bufferCapacity endpoint network rounds.flatten =
          moves.flatten ∧
        moves.length = rounds.length ∧
          ∀ round ∈ moves, Conveyor.Round round := by
  induction rounds generalizing network with
  | nil => exact ⟨[], rfl, rfl, fun _ member => by cases member⟩
  | cons round rest ih =>
      have first := turns round List.mem_cons_self
      rw [List.flatten_cons, connected_append, ← List.append_assoc] at once
      have onceFirst := (List.nodup_append.mp once).1
      rw [← endpoints_run bufferCapacity] at once
      obtain ⟨moves, isMoves, length, fair⟩ :=
        ih (standing.run first.holds first.keeps) once fun other member =>
          turns other (List.mem_cons_of_mem _ member)
      refine ⟨runMoves bufferCapacity endpoint network round :: moves,
        ?_, ?_, ?_⟩
      · rw [List.flatten_cons, runMoves_append, isMoves, List.flatten_cons]
      · rw [List.length_cons, List.length_cons, length]
      · intro other member
        rcases List.mem_cons.mp member with rfl | later
        · exact first.round onceFirst standing
        · exact fair other later

end Malstrom.Kubernetes.Communication.Network
