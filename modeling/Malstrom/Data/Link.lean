import Mathlib.Logic.Function.Basic
import Mathlib.Data.List.Basic

namespace Malstrom.Data

/-! A family of first-in first-out links, one for each ordered pair of ends. -/

abbrev Links (ι μ : Type) := ι → ι → List μ

namespace Links

variable {ι μ : Type} [DecidableEq ι]

def set (links : Links ι μ) (source target : ι) (contents : List μ) :
    Links ι μ :=
  Function.update links source (Function.update (links source) target contents)

theorem set_apply (links : Links ι μ) (source target : ι)
    (contents : List μ) (a b : ι) :
    links.set source target contents a b =
      if a = source ∧ b = target then contents else links a b := by
  unfold set
  by_cases sameSource : a = source
  · subst sameSource
    by_cases sameTarget : b = target
    · subst sameTarget
      simp
    · simp [sameTarget]
  · simp [sameSource]

def send (links : Links ι μ) (source target : ι) (message : μ) : Links ι μ :=
  links.set source target (links source target ++ [message])

def sendAll (links : Links ι μ) (source : ι) (messages : List (ι × μ)) :
    Links ι μ :=
  messages.foldl (fun current addressed =>
    current.send source addressed.1 addressed.2) links

def addressedTo (target : ι) (messages : List (ι × μ)) : List μ :=
  (messages.filter fun addressed => decide (addressed.1 = target)).map Prod.snd

@[simp] theorem addressedTo_nil (target : ι) :
    addressedTo target ([] : List (ι × μ)) = [] := rfl

theorem addressedTo_cons (target first : ι) (message : μ)
    (rest : List (ι × μ)) :
    addressedTo target ((first, message) :: rest) =
      if first = target then message :: addressedTo target rest
      else addressedTo target rest := by
  by_cases same : first = target <;> simp [addressedTo, same]

theorem addressedTo_append (target : ι) (first second : List (ι × μ)) :
    addressedTo target (first ++ second) =
      addressedTo target first ++ addressedTo target second := by
  simp [addressedTo]

theorem mem_addressedTo {target : ι} {messages : List (ι × μ)} {message : μ} :
    message ∈ addressedTo target messages ↔ (target, message) ∈ messages := by
  simp [addressedTo]

@[simp] theorem sendAll_nil (links : Links ι μ) (source : ι) :
    links.sendAll source [] = links := rfl

theorem sendAll_apply (links : Links ι μ) (source : ι)
    (messages : List (ι × μ)) (a b : ι) :
    links.sendAll source messages a b =
      if a = source then links a b ++ addressedTo b messages
      else links a b := by
  induction messages generalizing links with
  | nil => simp
  | cons addressed rest ih =>
      obtain ⟨first, message⟩ := addressed
      have step : links.sendAll source ((first, message) :: rest) =
          (links.send source first message).sendAll source rest := rfl
      rw [step, ih, addressedTo_cons, send, set_apply]
      by_cases sameSource : a = source
      · subst sameSource
        by_cases sameTarget : b = first
        · subst sameTarget
          simp
        · simp [sameTarget, Ne.symm sameTarget]
      · simp [sameSource]

theorem addressedTo_broadcast (targets : List ι) (nodup : targets.Nodup)
    (message : μ) (target : ι) :
    addressedTo target (targets.map fun end' => (end', message)) =
      if target ∈ targets then [message] else [] := by
  induction targets with
  | nil => simp
  | cons head tail ih =>
      rw [List.nodup_cons] at nodup
      rw [List.map_cons, addressedTo_cons, ih nodup.2]
      by_cases same : head = target
      · subst same
        simp [nodup.1]
      · simp [same, Ne.symm same]

end Links

/-! Contents of a link judged in the order in which its reader will take them:
the reader's view advances over each message, and each message has to be good
in the view it will meet. -/

section

variable {μ ν : Type}

def Judged (advance : ν → μ → ν) (good : ν → μ → Prop) : ν → List μ → Prop
  | _, [] => True
  | view, message :: rest =>
      good view message ∧ Judged advance good (advance view message) rest

/-- The reader's view once it has taken all of a list. -/
def viewAfter (advance : ν → μ → ν) (view : ν) (messages : List μ) : ν :=
  messages.foldl advance view

variable {advance : ν → μ → ν} {good : ν → μ → Prop} {view : ν}

@[simp] theorem Judged.nil : Judged advance good view [] := trivial

theorem viewAfter_append (first second : List μ) :
    viewAfter advance view (first ++ second) =
      viewAfter advance (viewAfter advance view first) second :=
  List.foldl_append

theorem judged_append {first second : List μ} :
    Judged advance good view (first ++ second) ↔
      Judged advance good view first ∧
        Judged advance good (viewAfter advance view first) second := by
  induction first generalizing view with
  | nil => simp [viewAfter, Judged]
  | cons message rest ih =>
      have viewStep : viewAfter advance view (message :: rest) =
          viewAfter advance (advance view message) rest := rfl
      simp only [List.cons_append, Judged, ih, viewStep, and_assoc]

theorem judged_push {messages : List μ} {message : μ} :
    Judged advance good view (messages ++ [message]) ↔
      Judged advance good view messages ∧
        good (viewAfter advance view messages) message := by
  rw [judged_append]
  simp [Judged]

theorem Judged.mono {better : ν → μ → Prop} {messages : List μ}
    (judged : Judged advance good view messages)
    (improve : ∀ later message, message ∈ messages →
      good later message → better later message) :
    Judged advance better view messages := by
  induction messages generalizing view with
  | nil => trivial
  | cons message rest ih =>
      exact ⟨improve _ _ (by simp) judged.1,
        ih judged.2 fun later candidate member =>
          improve later candidate (by simp [member])⟩

end

end Malstrom.Data
