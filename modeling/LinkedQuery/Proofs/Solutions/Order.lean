import LinkedQuery.Proofs.Solutions.Surroundings

/-!
# The order of parts

The order of joined parts does not matter.  Optional parts can be taken in any order when each two
of them share only variables that have a value on the left: then what a part adds to a solution,
`Solutions.fitting`, is the same before and after the others.
-/

namespace LinkedQuery.Solutions

open Solution

variable {left right part part' : Solutions} {parts parts' : List Solutions} {μ ν : Solution}
  {v : Variable} {vars : List Variable}

/-- The order of joined parts does not matter. -/
theorem joinList_perm (h : parts.Perm parts') :
  joinList parts = joinList parts'
  := by
  have hcommutes : LeftCommutative join := by
    constructor
    intro first second rest
    rw [← join_assoc, join_comm first, join_assoc]
  apply h.foldr_eq unit

/-- Joined parts have a value for what one of them has a value for. -/
theorem binds_joinList (h : part ∈ parts) (h' : ∀ μ ∈ part, Binds μ v) :
    ∀ μ ∈ joinList parts, Binds μ v
  := by
  obtain ⟨before, after, rfl⟩ := List.append_of_mem h
  rw [joinList_perm List.perm_middle, joinList_cons]
  apply binds_join h'

/-- A join is made one solution at a time. -/
theorem join_eq_bind (left right : Solutions) :
  join left right = left.bind fun μ => join {μ} right
  := by
  simp [join]

/-! ### What an optional part adds -/

open scoped Classical in
/-- What an optional part adds to a solution: what is compatible with it, or nothing if nothing
is. -/
noncomputable def fitting (part : Solutions) (μ : Solution) : Solutions :=
  if ∃ ν ∈ part, Compatible μ ν then part.filter (Compatible μ) else unit

theorem mem_of_mem_fitting (h : ν ∈ fitting part μ) :
  Compatible μ ν ∧ (ν ∈ part ∨ ν = empty)
  := by
  classical
  rw [fitting] at h
  split at h
  · obtain ⟨hmem, hcompatible⟩ := Multiset.mem_filter.mp h
    exact ⟨hcompatible, .inl hmem⟩
  · obtain rfl := Multiset.mem_singleton.mp h
    exact ⟨compatible_empty μ, .inr rfl⟩

open scoped Classical in
/-- Only what is compatible with a solution is joined with it. -/
theorem join_filter (part : Solutions) (μ : Solution) :
  join {μ} (part.filter (Compatible μ)) = join {μ} part
  := by
  simp only [join, Multiset.singleton_bind]
  induction part using Multiset.induction with
  | empty => rfl
  | cons ν part ih =>
      by_cases h : Compatible μ ν
      · rw [Multiset.filter_cons_of_pos _ h, Multiset.cons_bind, Multiset.cons_bind, ih]
      · rw [Multiset.filter_cons_of_neg _ h, Multiset.cons_bind, ih]
        simp [combine, h]

/-- An optional part is added to one solution at a time. -/
theorem optional_eq_bind (left part : Solutions) :
  optional left part = left.bind fun μ => join {μ} (fitting part μ)
  := by
  classical
  induction left using Multiset.induction with
  | empty => simp [optional, join]
  | cons μ left ih =>
      rw [Multiset.cons_bind, ← ih, optional, optional, join_eq_bind, Multiset.cons_bind,
        ← join_eq_bind]
      by_cases h : ∃ ν ∈ part, Compatible μ ν
      · rw [Multiset.filter_cons_of_neg _ (by simpa using h), fitting, if_pos h, join_filter]
        apply add_assoc
      · have hnone : join {μ} part = 0 := by
          apply Multiset.eq_zero_of_forall_notMem
          intro ρ hρ
          obtain ⟨_, hμ, ν, hν, hcompatible, -⟩ := mem_join.mp hρ
          rw [Multiset.mem_singleton.mp hμ] at hcompatible
          exact h ⟨ν, hν, hcompatible⟩
        rw [Multiset.filter_cons_of_pos _ (by simpa using h), fitting, if_neg h, hnone, join_unit,
          zero_add, ← Multiset.singleton_add]
        apply add_left_comm

/-! ### Optional parts in any order -/

/-- Whether two parts share only some variables. -/
def SharesOnly (vars : List Variable) (part part' : Solutions) : Prop :=
  ∀ μ ∈ part, ∀ ν ∈ part', ∀ v, Binds μ v → Binds ν v → v ∈ vars

theorem SharesOnly.symm (h : SharesOnly vars part part') :
  SharesOnly vars part' part
  := fun μ hμ ν hν v hv hv' => h ν hν μ hμ v hv' hv

/-- What a part adds to a solution is the same after another part, when the solution has a value
for all that the two parts share. -/
theorem fitting_merge (shared : SharesOnly vars part part') (binds : ∀ v ∈ vars, Binds μ v)
    (h : ν ∈ fitting part μ) :
  fitting part' (merge μ ν) = fitting part' μ
  := by
  classical
  obtain ⟨hcompatible, hmem⟩ := mem_of_mem_fitting h
  have hsame : ∀ ρ ∈ part', Compatible (merge μ ν) ρ ↔ Compatible μ ρ := by
    intro ρ hρ
    rw [compatible_merge hcompatible, and_iff_left_iff_imp]
    rcases hmem with hmem | rfl
    · intro hμρ v a b ha hb
      obtain ⟨c, hc⟩ := binds v (shared ν hmem ρ hρ v ⟨a, ha⟩ ⟨b, hb⟩)
      rw [← hcompatible v c a hc ha, hμρ v c b hc hb]
    · intro _
      apply (compatible_empty ρ).symm
  have hexists : (∃ ρ ∈ part', Compatible (merge μ ν) ρ) ↔ ∃ ρ ∈ part', Compatible μ ρ := by
    apply exists_congr
    intro ρ
    apply and_congr_right (hsame ρ)
  by_cases h : ∃ ρ ∈ part', Compatible μ ρ
  · rw [fitting, if_pos (hexists.mpr h), fitting, if_pos h]
    apply Multiset.filter_congr hsame
  · rw [fitting, if_neg (mt hexists.mp h), fitting, if_neg h]

/-- Optional parts that share only what the left has a value for are added at once. -/
theorem foldl_optional_eq_bind (binds : ∀ μ ∈ left, ∀ v ∈ vars, Binds μ v)
    (shared : parts.Pairwise (SharesOnly vars)) :
  parts.foldl optional left
    = left.bind fun μ => join {μ} (joinList (parts.map fun part => fitting part μ))
  := by
  induction parts generalizing left with
  | nil =>
      simp only [List.foldl_nil, List.map_nil, joinList_nil, join_unit]
      exact ((Multiset.bind_singleton left id).trans left.map_id).symm
  | cons part parts ih =>
      obtain ⟨hfirst, hrest⟩ := List.pairwise_cons.mp shared
      have hbinds : ∀ ρ ∈ optional left part, ∀ v ∈ vars, Binds ρ v := by
        intro ρ hρ v hv
        obtain ⟨μ, hμ, hextends⟩ := exists_extends_of_mem_optional hρ
        apply hextends.binds (binds μ hμ v hv)
      rw [List.foldl_cons, ih hbinds hrest, optional_eq_bind, Multiset.bind_assoc]
      apply Multiset.bind_congr
      intro μ hμ
      rw [List.map_cons, joinList_cons, ← join_assoc, join_eq_bind (join {μ} (fitting part μ))]
      apply Multiset.bind_congr
      intro ρ hρ
      obtain ⟨_, hself, ν, hν, -, rfl⟩ := mem_join.mp hρ
      obtain rfl := Multiset.mem_singleton.mp hself
      congr 2
      apply List.map_congr_left
      intro other hother
      apply fitting_merge (hfirst other hother) (binds _ hμ) hν

/-- Optional parts that share only what the left has a value for can be taken in any order. -/
theorem foldl_optional_perm (binds : ∀ μ ∈ left, ∀ v ∈ vars, Binds μ v)
    (shared : parts.Pairwise (SharesOnly vars)) (h : parts.Perm parts') :
  parts.foldl optional left = parts'.foldl optional left
  := by
  rw [foldl_optional_eq_bind binds shared,
    foldl_optional_eq_bind binds (shared.perm h SharesOnly.symm)]
  apply Multiset.bind_congr
  intro μ _
  rw [joinList_perm (h.map _)]

end LinkedQuery.Solutions
