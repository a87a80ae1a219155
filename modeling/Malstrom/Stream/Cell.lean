import Malstrom.Stream.Region

namespace Malstrom.Stream

open Data Channels Keyed Operators

variable {K V T S L U E : Type}

/-! What the calls of one operator do about a key, and what the cell of its
`Collect` has of them. -/

/-! ### The calls of an operator -/

def takenOf (turns : List (Turn K V T E)) : List (Message K V T) :=
  turns.filterMap Turn.taken

theorem takenOf_concat (turns : List (Turn K V T E)) (turn : Turn K V T E) :
    takenOf (turns ++ [turn]) = takenOf turns ++ turn.taken.toList := by
  cases isTaken : turn.taken <;> simp [takenOf, isTaken]

/-- A clone of the `Collect` is the last message which concerns the key. -/
abbrev Collected [DecidableEq K] (key : K) (messages : List (Message K V T)) :
    Prop :=
  Closed (Message.concerns key) (Message.isCollect key) messages

/-- Nothing of the key comes behind a clone of its `Collect`. -/
abbrev Shut [DecidableEq K] (key : K) (messages : List (Message K V T)) :
    Prop :=
  Sealed (Message.isCollect key) (Message.concerns key) messages

theorem collected_concat [DecidableEq K] {key : K} {turns : List (Turn K V T E)}
    {turn : Turn K V T E}
    (collected : Collected key (takenOf (turns ++ [turn]))) :
    turn.taken = some (.collect key) ∨ Collected key (takenOf turns) ∧
      ∀ message ∈ turn.taken, message.concerns key = false := by
  rw [takenOf_concat] at collected
  by_cases elsewhere : ∀ message ∈ turn.taken, message.concerns key = false
  · refine .inr ⟨(collected.split fun message member => ?_).1, elsewhere⟩
    exact not_isCollect (elsewhere message (by simpa using member))
  · obtain ⟨message, taken, concerns⟩ : ∃ message,
        turn.taken = some message ∧ message.concerns key = true := by
      simpa using elsewhere
    rw [taken, Option.toList_some] at collected
    rw [taken, isCollect_iff.mp (collected.ends concerns)]
    exact .inl rfl

namespace Logic

def outputs (logic : Logic K V T S E) : S → List (Turn K V T E) →
    List (Message K V T)
  | _, [] => []
  | state, turn :: rest =>
      logic.output turn.call.external state turn.taken ++
        logic.outputs (logic.advance turn.call.external state turn.taken) rest

variable {logic : Logic K V T S E} {state : S} {turns : List (Turn K V T E)}
  {turn : Turn K V T E}

theorem outputs_concat : logic.outputs state (turns ++ [turn]) =
    logic.outputs state turns ++
      logic.output turn.call.external (logic.replay state turns) turn.taken := by
  induction turns generalizing state with
  | nil => simp [outputs, replay]
  | cons first rest ih =>
      simp only [List.cons_append, outputs, ih, List.append_assoc]
      rfl

theorem replay_concat : logic.replay state (turns ++ [turn]) =
    logic.advance turn.call.external (logic.replay state turns) turn.taken := by
  simp [replay]

variable [DecidableEq K] {key : K} {held : S → Option Bytes}

/-- A call which takes nothing of the key has no state of it afterwards and sends
nothing of it, if it had none before. -/
theorem Keyed.quiet (keyed : logic.Keyed key held) {external : E}
    {taken : Option (Message K V T)} (unheld : held state = none)
    (elsewhere : ∀ message ∈ taken, message.concerns key = false) :
    held (logic.advance external state taken) = none ∧
      ∀ message ∈ logic.output external state taken,
        message.concerns key = false := by
  obtain ⟨scheduled, silent⟩ := keyed.scheduled external state unheld
  cases taken with
  | none => exact ⟨scheduled, silent⟩
  | some received =>
      have other := elsewhere received rfl
      obtain ⟨unheld, sends⟩ := keyed.received received _ other scheduled
      refine ⟨unheld, fun message member => ?_⟩
      simp only [output, List.mem_append] at member
      rcases member with (early | handled) | forwarded
      · exact silent message early
      · exact sends message handled
      · simp only [Logic.forwarded] at forwarded
        split at forwarded
        next => rwa [List.mem_singleton.mp forwarded]
        next => cases forwarded

theorem Passes.output (passes : logic.Passes key) (external : E) (state : S) :
    logic.output external state (some (.collect key)) =
      (logic.onSchedule external state).2 ++ [.collect key] := by
  simp [Logic.output, passes _, Logic.forwarded, Message.isCounted]

/-- A clone of the `Collect` is only sent on. -/
theorem Keyed.collects (keyed : logic.Keyed key held) {external : E}
    {taken : Option (Message K V T)} {message : Message K V T}
    (isCollect : message.isCollect key = true)
    (member : message ∈ logic.output external state taken) :
    taken = some (.collect key) := by
  cases taken with
  | none =>
      rw [keyed.scheduleCollect external state message member] at isCollect
      cases isCollect
  | some received =>
      cases same : received.isCollect key with
      | true => rw [isCollect_iff.mp same]
      | false =>
          have other : message.isCollect key = false := by
            simp only [Logic.output, List.mem_append] at member
            rcases member with (early | handled) | forwarded
            · exact keyed.scheduleCollect external state message early
            · exact keyed.receiveCollect received _ same message handled
            · simp only [Logic.forwarded] at forwarded
              split at forwarded
              next => rwa [List.mem_singleton.mp forwarded]
              next => cases forwarded
          rw [other] at isCollect
          cases isCollect

/-- An operator which has taken the last clone has no state of the key. -/
theorem Keyed.released (keyed : logic.Keyed key held) (state : S)
    (collected : Collected key (takenOf turns)) :
    held (logic.replay state turns) = none := by
  induction turns using List.reverseRecOn with
  | nil => exact absurd collected not_closed_nil
  | append_singleton turns turn ih =>
      rw [replay_concat]
      rcases collected_concat collected with taken | ⟨before, elsewhere⟩
      · rw [taken]
        exact keyed.collected _
      · exact (keyed.quiet (ih before) elsewhere).1

/-- An operator which has taken the last clone has sent it behind everything of
the key. -/
theorem Keyed.closes (keyed : logic.Keyed key held) (passes : logic.Passes key)
    (collected : Collected key (takenOf turns)) :
    Collected key (logic.outputs state turns) := by
  induction turns using List.reverseRecOn with
  | nil => exact absurd collected not_closed_nil
  | append_singleton turns turn ih =>
      rw [outputs_concat]
      rcases collected_concat collected with taken | ⟨before, elsewhere⟩
      · rw [taken, passes.output, ← List.append_assoc]
        exact closed_concat (isCollect_iff.mpr rfl)
      · exact (ih before).append
          (keyed.quiet (keyed.released state before) elsewhere).2

theorem Keyed.outputs_collect (keyed : logic.Keyed key held)
    (member : .collect key ∈ logic.outputs state turns) :
    ∃ turn ∈ turns, turn.taken = some (.collect key) := by
  induction turns generalizing state with
  | nil => cases member
  | cons turn rest ih =>
      rcases List.mem_append.mp member with here | later
      · exact ⟨turn, .head rest,
          keyed.collects (isCollect_iff.mpr rfl) here⟩
      · obtain ⟨found, isLater, taken⟩ := ih later
        exact ⟨found, .tail turn isLater, taken⟩

/-- If nothing of the key comes behind a clone, nothing of it is sent behind
one. -/
theorem Keyed.seals (keyed : logic.Keyed key held) (passes : logic.Passes key)
    (isShut : Shut key (takenOf turns)) :
    Shut key (logic.outputs state turns) := by
  induction turns using List.reverseRecOn with
  | nil => exact Sealed.nil
  | append_singleton turns turn ih =>
      rw [takenOf_concat] at isShut
      rw [outputs_concat]
      refine sealed_append.mpr ⟨ih isShut.earlier, ?_, ?_⟩
      · by_cases taken : turn.taken = some (.collect key)
        · rw [taken, passes.output]
          have single := keyed.scheduleCollect turn.call.external
            (logic.replay state turns)
          exact (sealed_of_unfinished single).push fun _ => single
        · apply sealed_of_unfinished
          intro message member
          cases isCollect : message.isCollect key with
          | false => rfl
          | true => exact absurd (keyed.collects isCollect member) taken
      · rintro ⟨sent, member, isCollect⟩
        obtain rfl := isCollect_iff.mp isCollect
        obtain ⟨earlier, isEarlier, taken⟩ := keyed.outputs_collect member
        have isTaken : .collect key ∈ takenOf turns :=
          List.mem_filterMap.mpr ⟨earlier, isEarlier, taken⟩
        have unheld := keyed.released state
          (isShut.earlier.closed isTaken isCollect)
        refine (keyed.quiet unheld fun message taken => ?_).2
        exact isShut.behind isTaken isCollect message (by simpa using taken)

end Logic

section

variable [DecidableEq K] {key : K} {channels : Nat} {turn : Turn K V T E}
  {turns : List (Turn K V T E)}

/-- A call takes what concerns a key off one channel, and nothing else. -/
theorem Turn.Served.concerning (served : turn.Served channels) (key : K) :
    ((∀ message ∈ turn.taken, message.concerns key = false) ∧
      ∀ channel < channels, ∀ message ∈ turn.left channel,
        message.concerns key = false) ∨
    ∃ channel < channels, ∃ message, message.concerns key = true ∧
      turn.taken = some message ∧ turn.left channel = [message] := by
  cases served with
  | @one channel message linked left unmarked returns =>
      cases concerns : message.concerns key with
      | true =>
          rw [(plain_of_concerns concerns).1] at returns
          refine .inr ⟨channel, linked, message, concerns, ?_, by simp [left]⟩
          cases isTaken : turn.taken with
          | none => simp [isTaken, plain] at returns
          | some taken =>
              rw [isTaken, Option.toList_some] at returns
              have member : message ∈ plain [taken] := returns ▸ .head []
              rw [List.mem_singleton.mp (List.mem_of_mem_filter member)]
      | false =>
          refine .inl ⟨fun taken isTaken => ?_, fun other _ queued member => ?_⟩
          · cases hits : taken.concerns key with
            | false => rfl
            | true =>
                rw [show turn.taken = some taken from isTaken,
                  Option.toList_some, (plain_of_concerns hits).1] at returns
                have member : taken ∈ plain [message] := returns ▸ .head []
                rw [List.mem_singleton.mp (List.mem_of_mem_filter member),
                  concerns] at hits
                cases hits
          · rw [left, Function.update_apply] at member
            split at member
            next => rwa [List.mem_singleton.mp member]
            next => cases member
  | idle left nothing => exact .inl (by simp [left, nothing])
  | @every marker isMarker left taken =>
      have elsewhere : marker.concerns key = false := by
        cases concerns : marker.concerns key with
        | false => rfl
        | true =>
            rw [(plain_of_concerns concerns).2] at isMarker
            cases isMarker
      refine .inl ⟨by simpa [taken] using elsewhere, ?_⟩
      intro channel linked message member
      rw [left channel linked] at member
      rwa [List.mem_singleton.mp member]

/-- If a clone is the last message of the key on each channel, it is so over
all of them. -/
theorem collected_taken (linked : 0 < channels)
    (served : ∀ turn ∈ turns, turn.Served channels)
    (collected : ∀ channel < channels,
      Collected key (turns.flatMap fun turn => turn.left channel)) :
    Collected key (takenOf turns) := by
  induction turns using List.reverseRecOn with
  | nil => exact absurd (collected 0 linked) not_closed_nil
  | append_singleton turns turn ih =>
      simp only [List.flatMap_append, List.flatMap_singleton] at collected
      rw [takenOf_concat]
      rcases (served turn (by simp)).concerning key with
        ⟨elsewhere, quiet⟩ |
          ⟨channel, inRange, message, concerns, isTaken, left⟩
      · refine (ih (fun turn member => served turn (by simp [member]))
          fun channel inRange => ?_).append (by simpa using elsewhere)
        exact ((collected channel inRange).split fun message member =>
          not_isCollect (quiet channel inRange message member)).1
      · have ends := collected channel inRange
        rw [left] at ends
        rw [isTaken, Option.toList_some]
        exact closed_concat (ends.ends concerns)

/-- An operator of one channel takes what concerns a key as it comes. -/
theorem filter_takenOf (served : ∀ turn ∈ turns, turn.Served 1) :
    (takenOf turns).filter (Message.concerns key) =
      (turns.flatMap fun turn => turn.left 0).filter (Message.concerns key) := by
  induction turns using List.reverseRecOn with
  | nil => rfl
  | append_singleton turns turn ih =>
      have last : turn.taken.toList.filter (Message.concerns key) =
          (turn.left 0).filter (Message.concerns key) := by
        rcases (served turn (by simp)).concerning key with
          ⟨elsewhere, quiet⟩ | ⟨channel, inRange, message, -, taken, left⟩
        · rw [List.filter_eq_nil_iff.mpr (by simpa using elsewhere),
            List.filter_eq_nil_iff.mpr (by simpa using quiet 0 Nat.one_pos)]
        · obtain rfl : channel = 0 := by omega
          rw [taken, left, Option.toList_some]
      rw [takenOf_concat, List.filter_append, last,
        ih fun turn member => served turn (by simp [member])]
      simp

end

/-! ### The cell -/

/-- What the cell has of an operator: nothing as long as no clone has met any
state, and what the first one met ever since. -/
inductive Cell [DecidableEq K] (logic : Logic K V T S E) (key : K)
    (held : S → Option Bytes) (origin : S) (turns : List (Turn K V T E))
    (entry : Option Bytes) : Prop
  | waiting (nothing : entry = none)
      (same : logic.replay origin (turns.map (Turn.without key)) =
        logic.replay origin turns)
      (unheld : ∀ before turn after, turns = before ++ turn :: after →
        turn.taken = some (.collect key) →
        held (logic.replay origin
          ((before ++ [turn]).map (Turn.without key))) = none)
  | written {before after : List (Turn K V T E)} {turn : Turn K V T E}
      {keyState : Bytes} (split : turns = before ++ turn :: after)
      (taken : turn.taken = some (.collect key))
      (isState : entry = some keyState)
      (state : held (logic.replay origin
        ((before ++ [turn]).map (Turn.without key))) = some keyState)
      (unheld : held (logic.replay origin turns) = none)
      (quiet : ∀ later ∈ after, ∀ message ∈ later.taken,
        message.key? ≠ some key)

section

variable [DecidableEq K] {key : K} {logic : Logic K V T S E}
  {held : S → Option Bytes} {origin : S} {turns : List (Turn K V T E)}
  {turn : Turn K V T E} {entry : Option Bytes}

theorem Turn.without_other (other : turn.taken ≠ some (.collect key)) :
    turn.without key = turn := by
  have kept : turn.taken.filter (fun message => !message.isCollect key) =
      turn.taken := by
    cases isTaken : turn.taken with
    | none => rfl
    | some message =>
        cases isCollect : message.isCollect key with
        | true => exact absurd (isCollect_iff.mp isCollect ▸ isTaken) other
        | false => simp [isCollect]
  rw [Turn.without, kept]

theorem Turn.without_collect (taken : turn.taken = some (.collect key)) :
    (turn.without key).taken = none := by
  simp [Turn.without, taken, Message.isCollect]

theorem Cell.nil : Cell logic key held origin [] none :=
  .waiting rfl rfl (by simp)

omit [DecidableEq K] in
theorem split_concat {before after : List (Turn K V T E)}
    {other : Turn K V T E} (split : turns ++ [turn] = before ++ other :: after) :
    (turns = before ∧ turn = other) ∨
      ∃ rest, turns = before ++ other :: rest := by
  cases after using List.reverseRecOn with
  | nil =>
      obtain ⟨same, last⟩ := List.append_inj' split rfl
      exact .inl ⟨same, List.singleton_inj.mp last⟩
  | append_singleton rest last =>
      rw [← List.cons_append, ← List.append_assoc] at split
      exact .inr ⟨rest, (List.append_inj' split rfl).1⟩

theorem Cell.untaken (cell : Cell logic key held origin turns entry)
    (untaken : ∀ turn ∈ turns, turn.taken ≠ some (.collect key)) :
    entry = none := by
  cases cell with
  | waiting nothing => exact nothing
  | @written before after turn _ split taken =>
      exact absurd taken (untaken turn (by simp [split]))

theorem Cell.pass (cell : Cell logic key held origin turns entry)
    (keyed : logic.Keyed key held)
    (other : turn.taken ≠ some (.collect key))
    (undivided : ∀ message ∈ turn.taken, message.key? = some key →
      entry = none) :
    Cell logic key held origin (turns ++ [turn]) entry := by
  cases cell with
  | waiting nothing same unheld =>
      refine .waiting nothing ?_ ?_
      · rw [List.map_append, List.map_singleton, Turn.without_other other,
          Logic.replay_concat, Logic.replay_concat, same]
      · intro before middle after split taken
        rcases split_concat split with ⟨rfl, rfl⟩ | ⟨rest, earlier⟩
        · exact absurd taken other
        · exact unheld before middle rest earlier taken
  | @written before after middle keyState split taken isState state unheld quiet =>
      have noRecord : ∀ message ∈ turn.taken, message.key? ≠ some key := by
        intro message member isKey
        rw [undivided message member isKey] at isState
        cases isState
      have later : turns ++ [turn] = before ++ middle :: (after ++ [turn]) := by
        simp [split]
      refine .written later taken isState state ?_ ?_
      · rw [Logic.replay_concat]
        refine (keyed.quiet unheld fun message member => ?_).1
        rw [Bool.eq_false_iff, ne_eq, concerns_iff]
        rintro (isKey | rfl)
        · exact noRecord message member isKey
        · exact other member
      · intro later member
        rcases List.mem_append.mp member with earlier | last
        · exact quiet later earlier
        · rwa [List.mem_singleton.mp last]

theorem Cell.take (cell : Cell logic key held origin turns entry)
    (keyed : logic.Keyed key held) (isCollect : turn.taken = some (.collect key))
    {next : Option Bytes}
    (writes : next = (held (logic.onSchedule turn.call.external
      (logic.replay origin turns)).1).or entry) :
    Cell logic key held origin (turns ++ [turn]) next := by
  have released : held (logic.replay origin (turns ++ [turn])) = none := by
    rw [Logic.replay_concat, isCollect]
    exact keyed.collected _
  cases cell with
  | waiting nothing same unheld =>
      have erased : logic.replay origin
          ((turns ++ [turn]).map (Turn.without key)) =
            (logic.onSchedule turn.call.external
              (logic.replay origin turns)).1 := by
        rw [List.map_append, List.map_singleton, Logic.replay_concat, same,
          Turn.without_collect isCollect]
        rfl
      rw [nothing, Option.or_none] at writes
      cases found : held (logic.onSchedule turn.call.external
          (logic.replay origin turns)).1 with
      | none =>
          refine .waiting (writes.trans found) ?_ ?_
          · rw [erased, Logic.replay_concat, isCollect]
            exact (keyed.uncollected _ _ found).symm
          · intro before middle after split taken
            rcases split_concat split with ⟨rfl, rfl⟩ | ⟨rest, earlier⟩
            · rw [erased, found]
            · exact unheld before middle rest earlier taken
      | some keyState =>
          have here : turns ++ [turn] = turns ++ turn :: [] := rfl
          exact .written here isCollect (writes.trans found)
            (by rw [erased, found]) released (by simp)
  | @written before after middle keyState split taken isState state unheld quiet =>
      have nothing := (keyed.scheduled turn.call.external _ unheld).1
      rw [nothing, Option.none_or] at writes
      have later : turns ++ [turn] = before ++ middle :: (after ++ [turn]) := by
        simp [split]
      refine .written later taken (writes.trans isState) state released ?_
      intro later member
      rcases List.mem_append.mp member with earlier | last
      · exact quiet later earlier
      · rw [List.mem_singleton.mp last, isCollect]
        rintro message member
        obtain rfl := Option.some.inj member
        simp [Message.key?]

/-- When the last clone has been taken behind everything of the key, the cell has
what all of it has led to. -/
theorem Cell.gathered (cell : Cell logic key held origin turns entry)
    (collected : Collected key (takenOf turns)) :
    ∃ before turn after, turns = before ++ turn :: after ∧
      turn.taken = some (.collect key) ∧
      (∀ later ∈ after, ∀ message ∈ later.taken, message.key? ≠ some key) ∧
      entry = held (logic.replay origin
        ((before ++ [turn]).map (Turn.without key))) := by
  cases cell with
  | waiting nothing same unheld =>
      obtain ⟨front, last, back, split, isCollect, quiet⟩ := collected
      obtain ⟨before, rest, rfl, -, tail⟩ :=
        List.filterMap_eq_append_iff.mp split
      obtain ⟨idle, turn, after, rfl, -, taken, rfl⟩ :=
        List.filterMap_eq_cons_iff.mp tail
      obtain rfl := isCollect_iff.mp isCollect
      refine ⟨before ++ idle, turn, after, by simp, taken, ?_, ?_⟩
      · intro later member message isTaken isKey
        have elsewhere := quiet message
          (List.mem_filterMap.mpr ⟨later, member, isTaken⟩)
        rw [concerns_iff.mpr (.inl isKey)] at elsewhere
        cases elsewhere
      · rw [unheld (before ++ idle) turn after (by simp) taken, nothing]
  | @written before after middle keyState split taken isState state unheld quiet =>
      exact ⟨before, middle, after, split, taken, quiet,
        isState.trans state.symm⟩

end

end Malstrom.Stream
