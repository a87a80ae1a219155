import Mathlib.Data.List.Basic

namespace Malstrom.Data

/-! A conveyor: messages pass from a bounded buffer over a line and a hand into
another bounded buffer, from which they are taken. The line may break. -/

structure Conveyor (μ : Type) where
  sent : List μ
  outbound : List μ
  line : List μ
  carried : Option μ
  inbound : List μ
  received : List μ
  broken : Bool
  deriving DecidableEq

namespace Conveyor

variable {μ : Type} {capacity : Nat} {belt : Conveyor μ}

inductive Move (μ : Type) where
  | push (message : μ)
  | pull
  | carry
  | deposit
  | take
  /-- The line breaks; of what it holds, the first messages are left. -/
  | lose (kept : Nat)
  deriving DecidableEq

def empty : Conveyor μ := ⟨[], [], [], none, [], [], false⟩

def push (capacity : Nat) (belt : Conveyor μ) (message : μ) : Conveyor μ :=
  if belt.outbound.length < capacity then
    { belt with
      outbound := belt.outbound ++ [message]
      sent := belt.sent ++ [message] }
  else belt

def pull (belt : Conveyor μ) : Conveyor μ :=
  match belt.broken, belt.outbound with
  | false, message :: rest =>
      { belt with outbound := rest, line := belt.line ++ [message] }
  | _, _ => belt

def carry (belt : Conveyor μ) : Conveyor μ :=
  match belt.carried, belt.line with
  | none, message :: rest => { belt with line := rest, carried := some message }
  | _, _ => belt

def deposit (capacity : Nat) (belt : Conveyor μ) : Conveyor μ :=
  match belt.carried with
  | none => belt
  | some message =>
      if belt.inbound.length < capacity then
        { belt with inbound := belt.inbound ++ [message], carried := none }
      else belt

def take (belt : Conveyor μ) : Conveyor μ :=
  match belt.inbound with
  | [] => belt
  | message :: rest =>
      { belt with inbound := rest, received := belt.received ++ [message] }

def lose (belt : Conveyor μ) (kept : Nat) : Conveyor μ :=
  { belt with line := belt.line.take kept, broken := true }

def step (capacity : Nat) (belt : Conveyor μ) : Move μ → Conveyor μ
  | .push message => belt.push capacity message
  | .pull => belt.pull
  | .carry => belt.carry
  | .deposit => belt.deposit capacity
  | .take => belt.take
  | .lose kept => belt.lose kept

def run (capacity : Nat) (belt : Conveyor μ) (moves : List (Move μ)) :
    Conveyor μ :=
  moves.foldl (step capacity) belt

@[simp] theorem run_nil : belt.run capacity [] = belt := rfl

theorem run_append (first second : List (Move μ)) :
    belt.run capacity (first ++ second) =
      (belt.run capacity first).run capacity second :=
  List.foldl_append

/-! ### What arrives -/

/-- Everything which has left the first buffer and is not lost. -/
def ahead (belt : Conveyor μ) : List μ :=
  belt.received ++ belt.inbound ++ belt.carried.toList ++ belt.line

theorem step_after (capacity : Nat) (belt : Conveyor μ) {move : Move μ}
    (after : move = .carry ∨ move = .deposit ∨ move = .take) :
    (belt.step capacity move).ahead = belt.ahead ∧
      (belt.step capacity move).outbound = belt.outbound ∧
      (belt.step capacity move).sent = belt.sent ∧
      (belt.step capacity move).broken = belt.broken := by
  rcases after with rfl | rfl | rfl
  · simp only [step, carry]
    split
    next message rest isFree isLine => simp [ahead, isFree, isLine]
    next => exact ⟨rfl, rfl, rfl, rfl⟩
  · simp only [step, deposit]
    split
    next => exact ⟨rfl, rfl, rfl, rfl⟩
    next message isCarried =>
      split
      · simp [ahead, isCarried]
      · exact ⟨rfl, rfl, rfl, rfl⟩
  · simp only [step, take]
    split
    next => exact ⟨rfl, rfl, rfl, rfl⟩
    next message rest isInbound => simp [ahead, isInbound]

structure Sound (capacity : Nat) (belt : Conveyor μ) : Prop where
  ordered : belt.ahead <+: belt.sent
  whole : belt.broken = false → belt.ahead ++ belt.outbound = belt.sent
  outboundFits : belt.outbound.length ≤ capacity
  inboundFits : belt.inbound.length ≤ capacity

theorem Sound.empty : (empty : Conveyor μ).Sound capacity where
  ordered := List.prefix_rfl
  whole _ := rfl
  outboundFits := Nat.zero_le _
  inboundFits := Nat.zero_le _

namespace Sound

variable (sound : belt.Sound capacity)

include sound

theorem push (message : μ) : (belt.push capacity message).Sound capacity := by
  unfold Conveyor.push
  split
  next room =>
    refine ⟨sound.ordered.trans (List.prefix_append _ _), fun whole => ?_, ?_,
      sound.inboundFits⟩
    · show belt.ahead ++ (belt.outbound ++ [message]) = belt.sent ++ [message]
      rw [← sound.whole whole, List.append_assoc]
    · simpa using Nat.succ_le_of_lt room
  next => exact sound

theorem pull : belt.pull.Sound capacity := by
  unfold Conveyor.pull
  split
  next message rest whole isOutbound =>
    have flows := sound.whole whole
    have moved : belt.received ++ belt.inbound ++ belt.carried.toList ++
        (belt.line ++ [message]) ++ rest = belt.sent := by
      rw [← flows, isOutbound]
      simp [ahead]
    refine ⟨⟨rest, moved⟩, fun _ => moved, ?_, sound.inboundFits⟩
    have fits := sound.outboundFits
    rw [isOutbound, List.length_cons] at fits
    exact Nat.le_of_succ_le fits
  next => exact sound

theorem after {move : Move μ}
    (after : move = .carry ∨ move = .deposit ∨ move = .take)
    (fits : (belt.step capacity move).inbound.length ≤ capacity) :
    (belt.step capacity move).Sound capacity := by
  obtain ⟨isAhead, isOutbound, isSent, isBroken⟩ :=
    step_after capacity belt after
  refine ⟨?_, ?_, ?_, fits⟩
  · rw [isAhead, isSent]
    exact sound.ordered
  · rw [isAhead, isOutbound, isSent, isBroken]
    exact sound.whole
  · rw [isOutbound]
    exact sound.outboundFits

theorem carry : belt.carry.Sound capacity := by
  refine sound.after (.inl rfl) ?_
  simp only [Conveyor.step, Conveyor.carry]
  split
  · exact sound.inboundFits
  · exact sound.inboundFits

theorem deposit : (belt.deposit capacity).Sound capacity := by
  refine sound.after (.inr (.inl rfl)) ?_
  simp only [Conveyor.step, Conveyor.deposit]
  split
  next => exact sound.inboundFits
  next message _ =>
    split
    next room => simpa using Nat.succ_le_of_lt room
    next => exact sound.inboundFits

theorem take : belt.take.Sound capacity := by
  refine sound.after (.inr (.inr rfl)) ?_
  simp only [Conveyor.step, Conveyor.take]
  split
  next => exact sound.inboundFits
  next message rest isInbound =>
    have fits := sound.inboundFits
    rw [isInbound, List.length_cons] at fits
    exact Nat.le_of_succ_le fits

theorem lose (kept : Nat) : (belt.lose kept).Sound capacity where
  ordered := by
    have shorter : (belt.lose kept).ahead <+: belt.ahead := by
      apply (List.prefix_append_right_inj _).mpr
      exact List.take_prefix kept belt.line
    exact shorter.trans sound.ordered
  whole broken := by cases broken
  outboundFits := sound.outboundFits
  inboundFits := sound.inboundFits

theorem step (move : Move μ) : (belt.step capacity move).Sound capacity := by
  cases move with
  | push message => exact sound.push message
  | pull => exact sound.pull
  | carry => exact sound.carry
  | deposit => exact sound.deposit
  | take => exact sound.take
  | lose kept => exact sound.lose kept

theorem received : belt.received <+: belt.sent := by
  apply List.IsPrefix.trans _ sound.ordered
  exact ⟨belt.inbound ++ (belt.carried.toList ++ belt.line), by simp [ahead]⟩

end Sound

theorem Sound.run (sound : belt.Sound capacity) (moves : List (Move μ)) :
    (belt.run capacity moves).Sound capacity := by
  induction moves generalizing belt with
  | nil => exact sound
  | cons move rest ih => exact ih (sound.step move)

/-! ### Nothing stays on the way -/

/-- As many moves as the first messages which were sent still need: each has four
borders to cross. -/
def left (belt : Conveyor μ) (count : Nat) : Nat :=
  (count - belt.received.length) +
    (count - (belt.received.length + belt.inbound.length)) +
    (count - (belt.received.length + belt.inbound.length +
      belt.carried.toList.length)) +
    (count - (belt.received.length + belt.inbound.length +
      belt.carried.toList.length + belt.line.length))

theorem left_le (belt : Conveyor μ) (count : Nat) :
    belt.left count ≤ 4 * (count - belt.received.length) := by
  simp only [left]
  omega

def Move.Keeps : Move μ → Prop
  | .lose _ => False
  | .push _ | .pull | .carry | .deposit | .take => True

theorem step_keeps (capacity : Nat) (belt : Conveyor μ) {move : Move μ}
    (keeps : move.Keeps) (count : Nat) :
    belt.sent <+: (belt.step capacity move).sent ∧
      (belt.step capacity move).broken = belt.broken ∧
      (belt.step capacity move).left count ≤ belt.left count := by
  have still : belt.sent <+: belt.sent ∧ belt.broken = belt.broken ∧
      belt.left count ≤ belt.left count :=
    ⟨List.prefix_rfl, rfl, Nat.le_refl _⟩
  cases move with
  | lose => exact keeps.elim
  | push message =>
      simp only [step, push]
      split
      · exact ⟨List.prefix_append _ _, rfl, Nat.le_refl _⟩
      · exact still
  | pull =>
      simp only [step, pull]
      split
      next message rest whole isOutbound =>
        refine ⟨List.prefix_rfl, rfl, ?_⟩
        simp only [left, List.length_append]
        omega
      next => exact still
  | carry =>
      simp only [step, carry]
      split
      next message rest isFree isLine =>
        refine ⟨List.prefix_rfl, rfl, ?_⟩
        simp only [left, isFree, isLine, Option.toList, List.length_cons,
          List.length_nil]
        omega
      next => exact still
  | deposit =>
      simp only [step, deposit]
      split
      next => exact still
      next message isCarried =>
        split
        · refine ⟨List.prefix_rfl, rfl, ?_⟩
          simp only [left, isCarried, Option.toList, List.length_append,
            List.length_cons, List.length_nil]
          omega
        · exact still
  | take =>
      simp only [step, take]
      split
      next => exact still
      next message rest isInbound =>
        refine ⟨List.prefix_rfl, rfl, ?_⟩
        simp only [left, isInbound, List.length_append, List.length_cons,
          List.length_nil]
        omega

theorem run_keeps (capacity : Nat) (belt : Conveyor μ)
    {moves : List (Move μ)} (keeps : ∀ move ∈ moves, move.Keeps)
    (count : Nat) :
    belt.sent <+: (belt.run capacity moves).sent ∧
      (belt.run capacity moves).broken = belt.broken ∧
      (belt.run capacity moves).left count ≤ belt.left count := by
  induction moves generalizing belt with
  | nil => exact ⟨List.prefix_rfl, rfl, Nat.le_refl _⟩
  | cons move rest ih =>
      obtain ⟨sent, broken, less⟩ :=
        step_keeps capacity belt (keeps move List.mem_cons_self) count
      obtain ⟨sentAfter, brokenAfter, lessAfter⟩ :=
        ih (belt.step capacity move) fun other member =>
          keeps other (List.mem_cons_of_mem _ member)
      exact ⟨sent.trans sentAfter, brokenAfter.trans broken,
        Nat.le_trans lessAfter less⟩

/-- A move is due if it brings one of the first messages on. -/
def Due (capacity count : Nat) (belt : Conveyor μ) : Move μ → Prop
  | .push _ | .lose _ => False
  | .pull =>
      belt.broken = false ∧ belt.outbound ≠ [] ∧ belt.ahead.length < count
  | .carry =>
      belt.carried = none ∧ belt.line ≠ [] ∧
        belt.received.length + belt.inbound.length < count
  | .deposit =>
      belt.carried.isSome = true ∧ belt.inbound.length < capacity ∧
        belt.received.length + belt.inbound.length < count
  | .take => belt.inbound ≠ [] ∧ belt.received.length < count

section

variable {count : Nat} {move other : Move μ}

theorem Due.left_lt (due : belt.Due capacity count move) :
    (belt.step capacity move).left count < belt.left count := by
  cases move with
  | push | lose => exact due.elim
  | pull =>
      obtain ⟨whole, some, early⟩ := due
      obtain ⟨message, rest, isOutbound⟩ := List.exists_cons_of_ne_nil some
      simp only [ahead, List.length_append] at early
      simp only [step, pull, whole, isOutbound, left, List.length_append,
        List.length_cons, List.length_nil]
      omega
  | carry =>
      obtain ⟨isFree, some, early⟩ := due
      obtain ⟨message, rest, isLine⟩ := List.exists_cons_of_ne_nil some
      simp only [step, carry, isFree, isLine, left, Option.toList,
        List.length_cons, List.length_nil]
      omega
  | deposit =>
      obtain ⟨some, room, early⟩ := due
      obtain ⟨message, isCarried⟩ := Option.isSome_iff_exists.mp some
      simp only [step, deposit, isCarried, if_pos room, left, Option.toList,
        List.length_append, List.length_cons, List.length_nil]
      omega
  | take =>
      obtain ⟨some, early⟩ := due
      obtain ⟨message, rest, isInbound⟩ := List.exists_cons_of_ne_nil some
      simp only [step, take, isInbound, left, List.length_append,
        List.length_cons, List.length_nil]
      omega

theorem Due.push (due : belt.Due capacity count move) (message : μ) :
    (belt.step capacity (.push message)).Due capacity count move := by
  simp only [step, Conveyor.push]
  split
  next =>
    cases move with
    | push | lose => exact due.elim
    | pull => exact ⟨due.1, by simp, due.2.2⟩
    | carry | deposit | take => exact due
  next => exact due

theorem Due.pull (due : belt.Due capacity count move)
    (different : .pull ≠ move) :
    (belt.step capacity .pull).Due capacity count move := by
  simp only [step, Conveyor.pull]
  split
  next =>
    cases move with
    | push | lose => exact due.elim
    | pull => exact absurd rfl different
    | carry => exact ⟨due.1, by simp, due.2.2⟩
    | deposit | take => exact due
  next => exact due

/-- The moves after a pull do not hinder it. -/
theorem Due.pull_after (due : belt.Due capacity count .pull)
    (after : other = .carry ∨ other = .deposit ∨ other = .take) :
    (belt.step capacity other).Due capacity count .pull := by
  obtain ⟨whole, some, early⟩ := due
  obtain ⟨isAhead, isOutbound, -, isBroken⟩ := step_after capacity belt after
  exact ⟨isBroken.trans whole, isOutbound ▸ some, isAhead ▸ early⟩

theorem Due.carry (due : belt.Due capacity count move)
    (different : .carry ≠ move) :
    (belt.step capacity .carry).Due capacity count move := by
  cases move with
  | push | lose => exact due.elim
  | pull => exact due.pull_after (.inl rfl)
  | carry => exact absurd rfl different
  | deposit =>
      have isFull : belt.carried.isSome = true := due.1
      simp only [step, Conveyor.carry]
      split
      next isFree _ => simp [isFree] at isFull
      next => exact due
  | take =>
      simp only [step, Conveyor.carry]
      split
      · exact due
      · exact due

theorem Due.deposit (due : belt.Due capacity count move)
    (different : .deposit ≠ move) :
    (belt.step capacity .deposit).Due capacity count move := by
  cases move with
  | push | lose => exact due.elim
  | pull => exact due.pull_after (.inr (.inl rfl))
  | carry =>
      have isFree : belt.carried = none := due.1
      simp only [step, Conveyor.deposit, isFree]
      exact due
  | deposit => exact absurd rfl different
  | take =>
      simp only [step, Conveyor.deposit]
      split
      next => exact due
      next =>
        split
        · exact ⟨by simp, due.2⟩
        · exact due

theorem Due.take (due : belt.Due capacity count move)
    (different : .take ≠ move) :
    (belt.step capacity .take).Due capacity count move := by
  cases move with
  | push | lose => exact due.elim
  | pull => exact due.pull_after (.inr (.inr rfl))
  | carry =>
      obtain ⟨isFree, some, early⟩ := due
      simp only [step, Conveyor.take]
      split
      next => exact ⟨isFree, some, early⟩
      next message rest isInbound =>
        refine ⟨isFree, some, ?_⟩
        simp only [isInbound, List.length_append, List.length_cons,
          List.length_nil] at early ⊢
        omega
  | deposit =>
      obtain ⟨some, room, early⟩ := due
      simp only [step, Conveyor.take]
      split
      next => exact ⟨some, room, early⟩
      next message rest isInbound =>
        simp only [isInbound, List.length_cons] at room early
        refine ⟨some, Nat.lt_of_succ_lt room, ?_⟩
        simp only [List.length_append, List.length_cons, List.length_nil]
        omega
  | take => exact absurd rfl different

theorem Due.step (due : belt.Due capacity count move) (keeps : other.Keeps)
    (different : other ≠ move) :
    (belt.step capacity other).Due capacity count move := by
  cases other with
  | push message => exact due.push message
  | pull => exact due.pull different
  | carry => exact due.carry different
  | deposit => exact due.deposit different
  | take => exact due.take different
  | lose => exact keeps.elim

theorem Due.run_lt (due : belt.Due capacity count move)
    {moves : List (Move μ)} (keeps : ∀ move ∈ moves, move.Keeps)
    (member : move ∈ moves) :
    (belt.run capacity moves).left count < belt.left count := by
  induction moves generalizing belt with
  | nil => cases member
  | cons first rest ih =>
      have keepsFirst := keeps first List.mem_cons_self
      have keepsRest : ∀ move ∈ rest, move.Keeps := fun other inRest =>
        keeps other (List.mem_cons_of_mem _ inRest)
      by_cases same : first = move
      · subst same
        have less := (run_keeps capacity (belt.step capacity first) keepsRest
          count).2.2
        exact Nat.lt_of_le_of_lt less due.left_lt
      · have inRest : move ∈ rest :=
          (List.mem_cons.mp member).resolve_left (Ne.symm same)
        have less := (step_keeps capacity belt keepsFirst count).2.2
        have fewer := ih (due.step keepsFirst same) keepsRest inRest
        exact Nat.lt_of_lt_of_le fewer less

/-- A full buffer is no deadlock: while a message is on the way, a move is due. -/
theorem exists_due (positive : 0 < capacity) (whole : belt.broken = false)
    (flows : belt.ahead ++ belt.outbound = belt.sent)
    (isSent : count ≤ belt.sent.length)
    (waiting : belt.received.length < count) :
    ∃ move, belt.Due capacity count move := by
  by_cases inbound : belt.inbound = []
  case neg => exact ⟨.take, inbound, waiting⟩
  have early : belt.received.length + belt.inbound.length < count := by
    rwa [inbound, List.length_nil, Nat.add_zero]
  cases carried : belt.carried with
  | some message =>
      refine ⟨.deposit, ?_, ?_, early⟩
      · rw [carried]
        rfl
      · rwa [inbound]
  | none =>
      by_cases line : belt.line = []
      case neg => exact ⟨.carry, carried, line, early⟩
      have isAhead : belt.ahead = belt.received := by
        simp [ahead, inbound, carried, line]
      rw [isAhead] at flows
      refine ⟨.pull, whole, ?_, ?_⟩
      · intro outbound
        rw [outbound, List.append_nil] at flows
        rw [flows] at waiting
        omega
      · rwa [isAhead]

end

/-- Every move which brings messages on has its turn, and nothing is lost. -/
structure Round (moves : List (Move μ)) : Prop where
  keeps : ∀ move ∈ moves, move.Keeps
  pulls : .pull ∈ moves
  carries : .carry ∈ moves
  deposits : .deposit ∈ moves
  takes : .take ∈ moves

theorem Round.left_lt {moves : List (Move μ)} (round : Round moves)
    {count : Nat} {move : Move μ} (due : belt.Due capacity count move) :
    (belt.run capacity moves).left count < belt.left count := by
  cases move with
  | push | lose => exact due.elim
  | pull => exact due.run_lt round.keeps round.pulls
  | carry => exact due.run_lt round.keeps round.carries
  | deposit => exact due.run_lt round.keeps round.deposits
  | take => exact due.run_lt round.keeps round.takes

theorem Sound.arrived (sound : belt.Sound capacity) (positive : 0 < capacity)
    (whole : belt.broken = false) {count : Nat}
    (isSent : count ≤ belt.sent.length) {rounds : List (List (Move μ))}
    (fair : ∀ moves ∈ rounds, Round moves)
    (enough : belt.left count ≤ rounds.length) :
    belt.sent <+: (belt.run capacity rounds.flatten).sent ∧
      count ≤ (belt.run capacity rounds.flatten).received.length := by
  induction rounds generalizing belt with
  | nil =>
      refine ⟨List.prefix_rfl, ?_⟩
      rw [List.length_nil] at enough
      simp only [left] at enough
      simp only [List.flatten_nil, run_nil]
      omega
  | cons moves rest ih =>
      have round := fair moves List.mem_cons_self
      obtain ⟨grows, broken, less⟩ :=
        run_keeps capacity belt round.keeps count
      rw [List.flatten_cons, run_append]
      have fewer : (belt.run capacity moves).left count ≤ rest.length := by
        rw [List.length_cons] at enough
        by_cases waiting : belt.received.length < count
        · obtain ⟨move, due⟩ :=
            exists_due positive whole (sound.whole whole) isSent waiting
          have decreased := round.left_lt due
          omega
        · have nothing := belt.left_le count
          omega
      obtain ⟨growsAfter, enoughAfter⟩ := ih (sound.run moves)
        (broken.trans whole) (Nat.le_trans isSent grows.length_le)
        (fun other member => fair other (List.mem_cons_of_mem _ member)) fewer
      exact ⟨grows.trans growsAfter, enoughAfter⟩

/-- After as many rounds as there are moves left, everything which had been sent
has arrived, whatever is sent meanwhile. -/
theorem Sound.delivered (sound : belt.Sound capacity)
    (positive : 0 < capacity) (whole : belt.broken = false)
    {rounds : List (List (Move μ))} (fair : ∀ moves ∈ rounds, Round moves)
    (enough : belt.left belt.sent.length ≤ rounds.length) :
    belt.sent <+: (belt.run capacity rounds.flatten).received := by
  obtain ⟨grows, arrived⟩ :=
    sound.arrived positive whole (Nat.le_refl _) fair enough
  exact List.prefix_of_prefix_length_le grows (sound.run _).received arrived

end Conveyor

end Malstrom.Data
