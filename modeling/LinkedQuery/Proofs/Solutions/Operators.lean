import LinkedQuery.Proofs.Solutions.Basic
import Mathlib.Data.Multiset.Bind

/-!
# Operators on solutions

The operators of the query algebra on multisets of solutions: `Solutions.join` merges what is
compatible, and `Solutions.optional` keeps the rows on the left that nothing on the right is
compatible with.
-/

namespace LinkedQuery

/-- Solutions, each as often as it is found. -/
abbrev Solutions := Multiset Solution

namespace Solutions

open Solution

open scoped Classical in
/-- The merger of two solutions, if they are compatible. -/
noncomputable def combine (μ ν : Solution) : Solutions :=
  if Compatible μ ν then {merge μ ν} else 0

/-- The mergers of the compatible pairs of two multisets. -/
noncomputable def join (left right : Solutions) : Solutions :=
  left.bind fun μ => right.bind fun ν => combine μ ν

open scoped Classical in
/-- The mergers, and the solutions on the left that are compatible with none on the right. -/
noncomputable def optional (left right : Solutions) : Solutions :=
  join left right + left.filter fun μ => ∀ ν ∈ right, ¬ Compatible μ ν

/-- The one solution without values. -/
def unit : Solutions := {Solution.empty}

/-- The join of several multisets. -/
noncomputable def joinList (parts : List Solutions) : Solutions :=
  parts.foldr join unit

variable {left right : Solutions} {μ ν ρ : Solution}

@[simp]
theorem mem_combine :
  ρ ∈ combine μ ν ↔ Compatible μ ν ∧ ρ = merge μ ν
  := by
  rw [combine]
  split
  · simp [*]
  · simp [*]

theorem mem_join :
  ρ ∈ join left right ↔ ∃ μ ∈ left, ∃ ν ∈ right, Compatible μ ν ∧ ρ = merge μ ν
  := by
  simp [join]

theorem mem_optional :
  ρ ∈ optional left right
    ↔ ρ ∈ join left right ∨ (ρ ∈ left ∧ ∀ ν ∈ right, ¬ Compatible ρ ν)
  := by
  simp [optional]

theorem combine_comm (μ ν : Solution) :
  combine μ ν = combine ν μ
  := by
  by_cases h : Compatible μ ν
  · simp [combine, h, h.symm, merge_comm h]
  · have h' : ¬ Compatible ν μ := fun h' => h h'.symm
    simp [combine, h, h']

theorem join_comm (left right : Solutions) :
  join left right = join right left
  := by
  rw [join, join, Multiset.bind_bind]
  simp only [combine_comm]

/-- Three solutions are merged when each two of them are compatible. -/
theorem combine_bind (μ ν ρ : Solution) :
  ((combine μ ν).bind fun σ => combine σ ρ) = (combine ν ρ).bind fun σ => combine μ σ
  := by
  by_cases hμν : Compatible μ ν
  · by_cases hνρ : Compatible ν ρ
    · have hleft : Compatible (merge μ ν) ρ ↔ Compatible μ ρ := by
        rw [compatible_merge hμν]
        simp [hνρ]
      have hright : Compatible μ (merge ν ρ) ↔ Compatible μ ρ := by
        constructor
        · intro h
          apply ((compatible_merge hνρ).mp h.symm).2.symm
        · intro h
          apply ((compatible_merge hνρ).mpr ⟨hμν.symm, h.symm⟩).symm
      by_cases hμρ : Compatible μ ρ
      · simp [combine, hμν, hνρ, hleft.mpr hμρ, hright.mpr hμρ, merge_assoc]
      · simp [combine, hμν, hνρ, mt hleft.mp hμρ, mt hright.mp hμρ]
    · have hleft : ¬ Compatible (merge μ ν) ρ := by
        rw [compatible_merge hμν]
        simp [hνρ]
      simp [combine, hμν, hνρ, hleft]
  · by_cases hνρ : Compatible ν ρ
    · have hright : ¬ Compatible μ (merge ν ρ) := by
        intro h
        apply hμν ((compatible_merge hνρ).mp h.symm).1.symm
      simp [combine, hμν, hνρ, hright]
    · simp [combine, hμν, hνρ]

theorem join_assoc (first second third : Solutions) :
  join (join first second) third = join first (join second third)
  := by
  simp only [join, Multiset.bind_assoc]
  congr 1
  funext μ
  congr 1
  funext ν
  rw [Multiset.bind_bind]
  congr 1
  funext ρ
  apply combine_bind

@[simp]
theorem join_unit (left : Solutions) :
  join left unit = left
  := by
  simp only [join, unit, combine, Multiset.singleton_bind, compatible_empty, if_true, merge_empty]
  exact (Multiset.bind_singleton left id).trans left.map_id

@[simp]
theorem unit_join (right : Solutions) :
  join unit right = right
  := by
  rw [join_comm, join_unit]

@[simp]
theorem joinList_append (parts more : List Solutions) :
  joinList (parts ++ more) = join (joinList parts) (joinList more)
  := by
  induction parts with
  | nil => simp [joinList]
  | cons part parts ih =>
      simp only [joinList, List.cons_append, List.foldr_cons] at ih ⊢
      rw [ih, join_assoc]

@[simp]
theorem joinList_cons (part : Solutions) (parts : List Solutions) :
  joinList (part :: parts) = join part (joinList parts)
  := rfl

@[simp]
theorem joinList_nil :
  joinList [] = unit
  := rfl

end Solutions

end LinkedQuery
