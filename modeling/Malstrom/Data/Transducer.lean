import Mathlib.Data.List.Infix

namespace Malstrom.Data

/-! Machines which answer every message with a list of messages. -/

structure Transducer (σ α β : Type) where
  step : σ → α → σ × List β

namespace Transducer

variable {σ τ α β γ δ : Type}

def after (machine : Transducer σ α β) : σ → List α → σ :=
  List.foldl fun state message => (machine.step state message).1

def outputs (machine : Transducer σ α β) : σ → List α → List β
  | _, [] => []
  | state, message :: rest =>
      (machine.step state message).2 ++
        machine.outputs (machine.step state message).1 rest

variable (machine : Transducer σ α β) (state : σ)

@[simp] theorem after_nil : machine.after state [] = state := rfl

@[simp] theorem after_cons (message : α) (rest : List α) :
    machine.after state (message :: rest) =
      machine.after (machine.step state message).1 rest := rfl

@[simp] theorem outputs_nil : machine.outputs state [] = [] := rfl

@[simp] theorem outputs_cons (message : α) (rest : List α) :
    machine.outputs state (message :: rest) =
      (machine.step state message).2 ++
        machine.outputs (machine.step state message).1 rest := rfl

theorem after_append (first second : List α) :
    machine.after state (first ++ second) =
      machine.after (machine.after state first) second :=
  List.foldl_append

theorem outputs_append (first second : List α) :
    machine.outputs state (first ++ second) =
      machine.outputs state first ++
        machine.outputs (machine.after state first) second := by
  induction first generalizing state with
  | nil => rfl
  | cons message rest ih => simp [ih]

theorem outputs_mono {first second : List α} (grows : first <+: second) :
    machine.outputs state first <+: machine.outputs state second := by
  obtain ⟨rest, rfl⟩ := grows
  rw [outputs_append]
  exact List.prefix_append _ _

/-- A machine seen through what matters of its messages is another machine:
messages which do not matter are not answered and leave the state related. -/
structure Projects (machine : Transducer σ α β) (abstract : Transducer τ γ δ)
    (related : σ → τ → Prop) (asked : α → Option γ) (answered : β → Option δ)
    (allowed : α → Prop) : Prop where
  heard : ∀ state shadow message request, allowed message →
    related state shadow → asked message = some request →
      related (machine.step state message).1 (abstract.step shadow request).1 ∧
        (machine.step state message).2.filterMap answered =
          (abstract.step shadow request).2
  unheard : ∀ state shadow message, allowed message → related state shadow →
    asked message = none →
      related (machine.step state message).1 shadow ∧
        (machine.step state message).2.filterMap answered = []

variable {machine} {abstract : Transducer τ γ δ} {related : σ → τ → Prop}
  {asked : α → Option γ} {answered : β → Option δ} {allowed : α → Prop}

theorem Projects.run
    (projects : machine.Projects abstract related asked answered allowed)
    {state : σ} {shadow : τ} (relates : related state shadow)
    {messages : List α} (permitted : ∀ message ∈ messages, allowed message) :
    related (machine.after state messages)
        (abstract.after shadow (messages.filterMap asked)) ∧
      (machine.outputs state messages).filterMap answered =
        abstract.outputs shadow (messages.filterMap asked) := by
  induction messages generalizing state shadow with
  | nil => exact ⟨relates, rfl⟩
  | cons message rest ih =>
      have first := permitted message List.mem_cons_self
      have others : ∀ message ∈ rest, allowed message :=
        fun other member => permitted other (List.mem_cons_of_mem _ member)
      cases matters : asked message with
      | none =>
          obtain ⟨next, silent⟩ :=
            projects.unheard state shadow message first relates matters
          obtain ⟨last, answers⟩ := ih next others
          simp only [after_cons, outputs_cons, List.filterMap_append, silent,
            List.nil_append, List.filterMap_cons_none matters]
          exact ⟨last, answers⟩
      | some request =>
          obtain ⟨next, answer⟩ :=
            projects.heard state shadow message request first relates matters
          obtain ⟨last, answers⟩ := ih next others
          simp only [after_cons, outputs_cons, List.filterMap_append, answer,
            answers, List.filterMap_cons_some matters]
          exact ⟨last, trivial⟩

end Transducer

end Malstrom.Data
