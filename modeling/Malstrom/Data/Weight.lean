import Mathlib.Algebra.Order.BigOperators.Group.Finset
import Mathlib.Algebra.Order.Ring.Nat
import Mathlib.Algebra.BigOperators.Ring.Finset
import Malstrom.Data.Cut
import Malstrom.Data.Link

namespace Malstrom.Data

/-! What the messages on a family of links weigh.  A weight which pays for what
follows from a message bounds how much follows at all. -/

namespace Links

variable {ι μ : Type} {weigh : ι → ι → μ → Nat} {places : Finset ι}
  {source target : ι}

def weight (weigh : ι → ι → μ → Nat) (places : Finset ι)
    (links : Links ι μ) : Nat :=
  ∑ ends ∈ places ×ˢ places,
    ((links ends.1 ends.2).map (weigh ends.1 ends.2)).sum

def load (weigh : ι → ι → μ → Nat) (source : ι) (messages : List (ι × μ)) :
    Nat :=
  (messages.map fun addressed => weigh source addressed.1 addressed.2).sum

@[simp] theorem load_nil : load weigh source [] = 0 := rfl

@[simp] theorem load_cons (addressed : ι × μ) (rest : List (ι × μ)) :
    load weigh source (addressed :: rest) =
      weigh source addressed.1 addressed.2 + load weigh source rest := rfl

theorem load_append (first second : List (ι × μ)) :
    load weigh source (first ++ second) =
      load weigh source first + load weigh source second := by
  simp [load]

theorem load_eq_zero {messages : List (ι × μ)}
    (light : ∀ addressed ∈ messages,
      weigh source addressed.1 addressed.2 = 0) :
    load weigh source messages = 0 := by
  induction messages with
  | nil => rfl
  | cons addressed rest ih =>
      rw [load_cons, light addressed (.head _),
        ih fun later member => light later (.tail _ member)]

theorem weight_le_mul {other : ι → ι → μ → Nat} {links : Links ι μ}
    (bound : Nat) (light : ∀ source target message,
      weigh source target message ≤ bound * other source target message) :
    links.weight weigh places ≤ bound * links.weight other places := by
  rw [weight, weight, Finset.mul_sum]
  refine Finset.sum_le_sum fun ends _ => ?_
  induction links ends.1 ends.2 with
  | nil => exact Nat.zero_le _
  | cons message rest ih =>
      simp only [List.map_cons, List.sum_cons, Nat.mul_add]
      exact Nat.add_le_add (light ends.1 ends.2 message) ih

variable [DecidableEq ι] {links : Links ι μ}

theorem weight_send (message : μ) (sourceInside : source ∈ places)
    (targetInside : weigh source target message ≠ 0 → target ∈ places) :
    weight weigh places (links.send source target message) =
      weight weigh places links + weigh source target message := by
  have others (ends : ι × ι) (different : ends ≠ (source, target)) :
      links.send source target message ends.1 ends.2 = links ends.1 ends.2 := by
    rw [send, set_apply, if_neg]
    exact fun both => different (Prod.ext both.1 both.2)
  by_cases inside : target ∈ places
  · refine sum_gain (Finset.mk_mem_product sourceInside inside)
      (fun ends _ different => ?_) ?_
    · rw [others ends different]
    · simp [send, set_apply]
  · have weightless : weigh source target message = 0 :=
      not_not.mp (mt targetInside inside)
    rw [weightless, Nat.add_zero]
    refine Finset.sum_congr rfl fun ends member => ?_
    rw [others ends]
    rintro rfl
    exact inside (Finset.mem_product.mp member).2

theorem weight_sendAll (messages : List (ι × μ)) (sourceInside : source ∈ places)
    (targetsInside : ∀ addressed ∈ messages,
      weigh source addressed.1 addressed.2 ≠ 0 → addressed.1 ∈ places) :
    weight weigh places (links.sendAll source messages) =
      weight weigh places links + load weigh source messages := by
  induction messages generalizing links with
  | nil => rfl
  | cons addressed rest ih =>
      calc weight weigh places (links.sendAll source (addressed :: rest))
          = weight weigh places (links.send source addressed.1 addressed.2) +
              load weigh source rest :=
            ih fun later member => targetsInside later (.tail _ member)
        _ = weight weigh places links +
              weigh source addressed.1 addressed.2 +
              load weigh source rest := by
            rw [weight_send addressed.2 sourceInside
              (targetsInside addressed (.head _))]
        _ = weight weigh places links +
              load weigh source (addressed :: rest) := by
            rw [load_cons, Nat.add_assoc]

theorem weight_take {message : μ} {rest : List μ}
    (sourceInside : source ∈ places) (targetInside : target ∈ places)
    (head : links source target = message :: rest) :
    weight weigh places links =
      weight weigh places (links.set source target rest) +
        weigh source target message := by
  refine sum_gain (Finset.mk_mem_product sourceInside targetInside)
    (fun ends _ different => ?_) ?_
  · rw [set_apply, if_neg]
    exact fun both => different (Prod.ext both.1 both.2)
  · simp [set_apply, head, Nat.add_comm]

end Links

end Malstrom.Data
