import Mathlib.Data.List.Nodup

namespace Malstrom.Data

/-! One thing which is moved around between many places. -/

section

variable {ι α : Type} {inside : ι → Prop} {content next : ι → List α}
  {value : Option α}

/-- One of the places holds the value, and the others hold nothing. -/
def Lone (inside : ι → Prop) (content : ι → List α) (value : Option α) : Prop :=
  ∃ place, inside place ∧ content place = value.toList ∧
    ∀ other, inside other → other ≠ place → content other = []

theorem Lone.congr (lone : Lone inside content value)
    (same : ∀ place, inside place → next place = content place) :
    Lone inside next value := by
  obtain ⟨place, isInside, holds, empty⟩ := lone
  refine ⟨place, isInside, (same place isInside).trans holds, ?_⟩
  intro other isOther different
  rw [same other isOther]
  exact empty other isOther different

theorem Lone.all {place : ι} (lone : Lone inside content value)
    (isInside : inside place) (holds : content place ≠ []) :
    content place = value.toList ∧
      ∀ other, inside other → other ≠ place → content other = [] := by
  obtain ⟨home, -, isValue, empty⟩ := lone
  by_cases isHome : place = home
  · subst isHome
    exact ⟨isValue, empty⟩
  · exact absurd (empty place isInside isHome) holds

/-- Where all other places are empty the place holds the value. -/
theorem Lone.only {place : ι} (lone : Lone inside content value)
    (isInside : inside place)
    (empty : ∀ other, inside other → other ≠ place → content other = []) :
    content place = value.toList := by
  obtain ⟨home, isHome, isValue, others⟩ := lone
  by_cases same : place = home
  · exact same ▸ isValue
  · rw [others place isInside same, ← isValue,
      empty home isHome (Ne.symm same)]

/-- What one place gives away another one has. -/
theorem Lone.move {source target : ι} {moved : List α}
    (lone : Lone inside content value) (isSource : inside source)
    (isTarget : inside target) (different : source ≠ target)
    (gives : content source = moved ++ next source)
    (idle : moved = [] → next target = content target)
    (takes : moved ≠ [] → content target = [] → next target = moved)
    (same : ∀ place, inside place → place ≠ source → place ≠ target →
      next place = content place) : Lone inside next value := by
  by_cases nothing : moved = []
  · refine lone.congr fun place isInside => ?_
    by_cases atSource : place = source
    · rw [atSource, gives, nothing, List.nil_append]
    · by_cases atTarget : place = target
      · rw [atTarget, idle nothing]
      · exact same place isInside atSource atTarget
  · obtain ⟨isValue, empty⟩ := lone.all isSource (by simp [gives, nothing])
    have arrived := takes nothing (empty target isTarget (Ne.symm different))
    have whole : moved = value.toList ∧ next source = [] := by
      rw [gives] at isValue
      cases value with
      | none => exact absurd (List.append_eq_nil_iff.mp isValue).1 nothing
      | some state =>
          obtain ⟨first, rest, rfl⟩ := List.exists_cons_of_ne_nil nothing
          simp only [List.cons_append, Option.toList_some, List.cons.injEq,
            List.append_eq_nil_iff] at isValue
          obtain ⟨rfl, rfl, left⟩ := isValue
          exact ⟨rfl, left⟩
    refine ⟨target, isTarget, arrived.trans whole.1, ?_⟩
    intro other isOther notTarget
    by_cases atSource : other = source
    · rw [atSource, whole.2]
    · rw [same other isOther atSource notTarget]
      exact empty other isOther atSource

theorem Lone.restrict {part : ι → Prop} {home : ι}
    (lone : Lone inside content value)
    (within : ∀ place, part place → inside place)
    (empty : ∀ place, inside place → ¬part place → content place = [])
    (isHome : part home) : Lone part content value := by
  obtain ⟨place, isInside, isValue, others⟩ := lone
  by_cases isPart : part place
  · exact ⟨place, isPart, isValue,
      fun other isOther => others other (within other isOther)⟩
  · have nothing := empty place isInside isPart
    refine ⟨home, isHome, ?_, fun other isOther _ =>
      others other (within other isOther) ?_⟩
    · rw [← isValue, nothing]
      exact others home (within home isHome) fun same => isPart (same ▸ isHome)
    · exact fun same => isPart (same ▸ isOther)

theorem Lone.extend {whole : ι → Prop} (lone : Lone inside content value)
    (within : ∀ place, inside place → whole place)
    (same : ∀ place, inside place → next place = content place)
    (empty : ∀ place, whole place → ¬inside place → next place = []) :
    Lone whole next value := by
  obtain ⟨place, isInside, isValue, others⟩ := lone
  refine ⟨place, within place isInside,
    (same place isInside).trans isValue, ?_⟩
  intro other isOther different
  by_cases isInside : inside other
  · rw [same other isInside]
    exact others other isInside different
  · exact empty other isOther isInside

theorem Lone.flatMap {places : List ι} (nodup : places.Nodup)
    (lone : Lone (fun place => place ∈ places) content value) :
    places.flatMap content = value.toList := by
  obtain ⟨place, isInside, isValue, others⟩ := lone
  obtain ⟨before, after, rfl⟩ := List.append_of_mem isInside
  have apart := List.nodup_middle.mp nodup
  have unheld := (List.nodup_cons.mp apart).1
  have empty : ∀ other, other ∈ before ++ after → content other = [] := by
    intro other member
    refine others other ?_ fun same => unheld (same ▸ member)
    rcases List.mem_append.mp member with earlier | later
    · exact List.mem_append_left _ earlier
    · exact List.mem_append_right _ (List.mem_cons_of_mem _ later)
  rw [List.flatMap_append, List.flatMap_cons, isValue,
    List.flatMap_eq_nil_iff.mpr fun other member =>
      empty other (List.mem_append_left _ member),
    List.flatMap_eq_nil_iff.mpr fun other member =>
      empty other (List.mem_append_right _ member),
    List.nil_append, List.append_nil]

end

end Malstrom.Data
