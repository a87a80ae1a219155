import Malstrom.Data.Link

namespace Malstrom.Data

/-! A marker on its way through a queue to the reader of the queue.  It brings
the reader, and every message behind it, from one condition to another. -/

section

variable {μ : Type}

def sweep (marker : μ → Bool) (passed : Bool) (message : μ) : Bool :=
  passed || marker message

def SweptMessage (before after : μ → Prop) (passed : Bool) (message : μ) :
    Prop :=
  if passed then after message else before message

/-- The marker is in the queue or has passed. -/
def Sweeping (marker : μ → Bool) (before after : μ → Prop)
    (readerBefore readerAfter : Prop) (queue : List μ) : Prop :=
  ∃ passed : Bool, (if passed then readerAfter else readerBefore) ∧
    Judged (sweep marker) (SweptMessage before after) passed queue ∧
    viewAfter (sweep marker) passed queue = true

variable {marker : μ → Bool} {before after : μ → Prop}
  {readerBefore readerAfter : Prop} {queue : List μ}

theorem viewAfter_sweep_of_passed :
    viewAfter (sweep marker) true queue = true := by
  induction queue with
  | nil => rfl
  | cons message rest ih => simpa [viewAfter, sweep] using ih

theorem viewAfter_sweep_of_absent {passed : Bool}
    (absent : ∀ message ∈ queue, marker message = false) :
    viewAfter (sweep marker) passed queue = passed := by
  induction queue with
  | nil => rfl
  | cons message rest ih =>
      have first := absent message (by simp)
      have others := ih fun later member => absent later (by simp [member])
      simpa [viewAfter, sweep, first] using others

theorem judged_sweep_of_absent
    (absent : ∀ message ∈ queue, marker message = false)
    (unswept : ∀ message ∈ queue, before message) :
    Judged (sweep marker) (SweptMessage before after) false queue := by
  induction queue with
  | nil => trivial
  | cons message rest ih =>
      have first := absent message (by simp)
      refine ⟨unswept message (by simp), ?_⟩
      simpa [sweep, first] using ih
        (fun later member => absent later (by simp [member]))
        (fun later member => unswept later (by simp [member]))

theorem judged_sweep_passed
    (judged : Judged (sweep marker) (SweptMessage before after) true queue) :
    ∀ message ∈ queue, after message := by
  induction queue with
  | nil => simp
  | cons message rest ih =>
      intro found member
      rcases List.mem_cons.mp member with first | later
      · exact first ▸ judged.1
      · exact ih (by simpa [sweep] using judged.2) found later

theorem Sweeping.start {message : μ} (isMarker : marker message = true)
    (absent : ∀ message ∈ queue, marker message = false)
    (unswept : ∀ message ∈ queue, before message)
    (markerBefore : before message) (reader : readerBefore) :
    Sweeping marker before after readerBefore readerAfter
      (queue ++ [message]) := by
  refine ⟨false, reader, ?_, ?_⟩
  · rw [judged_push, viewAfter_sweep_of_absent absent]
    exact ⟨judged_sweep_of_absent absent unswept, markerBefore⟩
  · rw [viewAfter_append, viewAfter_sweep_of_absent absent]
    simp [viewAfter, sweep, isMarker]

theorem Sweeping.push {more : List μ}
    (sweeping : Sweeping marker before after readerBefore readerAfter queue)
    (swept : ∀ message ∈ more, after message) :
    Sweeping marker before after readerBefore readerAfter (queue ++ more) := by
  obtain ⟨passed, reader, judged, final⟩ := sweeping
  refine ⟨passed, reader, ?_, ?_⟩
  · rw [judged_append, final]
    refine ⟨judged, ?_⟩
    clear final
    induction more with
    | nil => trivial
    | cons message rest ih =>
        refine ⟨swept message (by simp), ?_⟩
        simpa [sweep] using ih fun later member => swept later (by simp [member])
  · rw [viewAfter_append, final]
    exact viewAfter_sweep_of_passed

theorem Sweeping.pop {message : μ} {readerBefore' readerAfter' : Prop}
    (sweeping : Sweeping marker before after readerBefore readerAfter
      (message :: queue))
    (unswept : marker message = false → readerBefore → before message →
      readerBefore')
    (sweeps : marker message = true → readerBefore → before message →
      readerAfter')
    (swept : readerAfter → after message → readerAfter') :
    Sweeping marker before after readerBefore' readerAfter' queue := by
  obtain ⟨passed, reader, judged, final⟩ := sweeping
  refine ⟨sweep marker passed message, ?_, judged.2, final⟩
  cases passed with
  | true => exact swept reader judged.1
  | false =>
      cases isMarker : marker message with
      | true =>
          simp only [sweep, isMarker, Bool.or_true, if_true]
          exact sweeps isMarker reader judged.1
      | false =>
          simp only [sweep, isMarker, Bool.or_false, Bool.false_eq_true, if_false]
          exact unswept isMarker reader judged.1

/-- Once the marker is not in the queue any more it has passed. -/
theorem Sweeping.done
    (sweeping : Sweeping marker before after readerBefore readerAfter queue)
    (absent : ∀ message ∈ queue, marker message = false) :
    readerAfter ∧ ∀ message ∈ queue, after message := by
  obtain ⟨passed, reader, judged, final⟩ := sweeping
  rw [viewAfter_sweep_of_absent absent] at final
  subst final
  exact ⟨reader, judged_sweep_passed judged⟩

theorem Sweeping.mono {after' : μ → Prop} {readerBefore' readerAfter' : Prop}
    (sweeping : Sweeping marker before after readerBefore readerAfter queue)
    (improve : ∀ message, after message → after' message)
    (improveBefore : readerBefore → readerBefore')
    (improveAfter : readerAfter → readerAfter') :
    Sweeping marker before after' readerBefore' readerAfter' queue := by
  obtain ⟨passed, reader, judged, final⟩ := sweeping
  refine ⟨passed, ?_, judged.mono fun view message _ good => ?_, final⟩
  · cases passed with
    | true => exact improveAfter reader
    | false => exact improveBefore reader
  · cases view with
    | true => exact improve message good
    | false => exact good

end

end Malstrom.Data
