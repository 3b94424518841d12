import LinkedQuery.Proofs.Solutions.Instance

/-!
# Surroundings

Solutions are surrounded by what they are joined with, and by optional parts that follow them.
Solutions of the whole come from solutions in the surroundings, and they can be extended as those
are.  When the solutions in the surroundings get an optional part, `Around.exists_extends_iff`
tells which solutions of the whole are kept.
-/

namespace LinkedQuery.Solutions

open Solution

/-- Two multisets with the same surroundings, `Ω` and `Ω'` in the place of each other. -/
inductive Around (Ω Ω' : Solutions) : Solutions → Solutions → Prop where
  | here : Around Ω Ω' Ω Ω'
  | join (part : Solutions) {Ψ Ψ' : Solutions} (around : Around Ω Ω' Ψ Ψ') :
      Around Ω Ω' (join part Ψ) (join part Ψ')
  | optional (part : Solutions) {Ψ Ψ' : Solutions} (around : Around Ω Ω' Ψ Ψ') :
      Around Ω Ω' (optional Ψ part) (optional Ψ' part)

variable {Ω Ω' Ψ Ψ' left right : Solutions} {μ ν : Solution} {v : Variable}

theorem Around.trans {Φ Φ' : Solutions} (h : Around Ω Ω' Ψ Ψ') (h' : Around Ψ Ψ' Φ Φ') :
  Around Ω Ω' Φ Φ'
  := by
  induction h' with
  | here => apply h
  | join part _ ih => apply ih.join part
  | optional part _ ih => apply ih.optional part

/-- Optional parts that follow are surroundings. -/
theorem Around.foldl_optional (parts : List Solutions) (around : Around Ω Ω' Ψ Ψ') :
  Around Ω Ω' (parts.foldl Solutions.optional Ψ) (parts.foldl Solutions.optional Ψ')
  := by
  induction parts generalizing Ψ Ψ' with
  | nil => apply around
  | cons part parts ih => apply ih (around.optional part)

/-- The parts before and after one of several joined parts are surroundings. -/
theorem Around.joinList (before after : List Solutions) (around : Around Ω Ω' Ψ Ψ') :
  Around Ω Ω' (Solutions.joinList (before ++ Ψ :: after))
    (Solutions.joinList (before ++ Ψ' :: after))
  := by
  have hmove (part : Solutions) :
      Solutions.joinList (before ++ part :: after)
        = Solutions.join (Solutions.joinList before)
            (Solutions.join (Solutions.joinList after) part) := by
    rw [joinList_append, joinList_cons, join_comm part]
  rw [hmove, hmove]
  apply (around.join _).join

/-! ### Solutions of the whole and in the surroundings -/

/-- A joined solution extends its parts. -/
theorem exists_extends_of_mem_join (h : ν ∈ join left right) :
  (∃ μ ∈ left, Extends ν μ) ∧ ∃ ρ ∈ right, Extends ν ρ
  := by
  obtain ⟨μ, hμ, ρ, hρ, hcompatible, rfl⟩ := mem_join.mp h
  constructor
  · use μ, hμ
    apply extends_merge_left
  · use ρ, hρ
    apply extends_merge_right hcompatible

/-- A solution with an optional part extends one without. -/
theorem exists_extends_of_mem_optional (h : ν ∈ optional left right) :
  ∃ μ ∈ left, Extends ν μ
  := by
  rcases mem_optional.mp h with h | ⟨h, -⟩
  · apply (exists_extends_of_mem_join h).1
  · use ν, h, Extends.refl ν

/-- A solution of the whole extends one in the surroundings. -/
theorem Around.exists_extends (around : Around Ω Ω' Ψ Ψ') (h : ν ∈ Ψ) :
  ∃ ω ∈ Ω, Extends ν ω
  := by
  induction around generalizing ν with
  | here => use ν, h, Extends.refl ν
  | join part _ ih =>
      obtain ⟨-, ρ, hρ, hextends⟩ := exists_extends_of_mem_join h
      obtain ⟨ω, hω, hextends'⟩ := ih hρ
      use ω, hω, hextends.trans hextends'
  | optional part _ ih =>
      obtain ⟨ρ, hρ, hextends⟩ := exists_extends_of_mem_optional h
      obtain ⟨ω, hω, hextends'⟩ := ih hρ
      use ω, hω, hextends.trans hextends'

/-- Whether `ω` can be extended in `Ω` only in ways in which `μ` can be extended in `Ψ`. -/
def Lifts (Ω Ψ : Solutions) (ω μ : Solution) : Prop :=
  ∀ ν, Compatible μ ν → merge ω ν ∈ Ω → merge μ ν ∈ Ψ

/-- A solution of the whole comes from one in the surroundings, and it is extended as that one
is. -/
theorem Around.exists_lifts (around : Around Ω Ω' Ψ Ψ') (h : μ ∈ Ψ') :
  ∃ ω ∈ Ω', Extends μ ω ∧ Lifts Ω Ψ ω μ
  := by
  induction around generalizing μ with
  | here => exact ⟨μ, h, Extends.refl μ, fun _ _ h => h⟩
  | @join part Ψ Ψ' _ ih =>
      obtain ⟨α, hα, β, hβ, hcompatible, rfl⟩ := mem_join.mp h
      obtain ⟨ω, hω, hextends, hlifts⟩ := ih hβ
      refine ⟨ω, hω, (extends_merge_right hcompatible).trans hextends, ?_⟩
      intro ν hν hmem
      obtain ⟨hαν, hβν⟩ := (compatible_merge hcompatible).mp hν
      have hα' : Compatible α (merge β ν) :=
        ((compatible_merge hβν).mpr ⟨hcompatible.symm, hαν.symm⟩).symm
      apply mem_join.mpr
      exact ⟨α, hα, merge β ν, hlifts ν hβν hmem, hα', merge_assoc α β ν⟩
  | @optional part Ψ Ψ' _ ih =>
      rcases mem_optional.mp h with h | ⟨h, hnone⟩
      · obtain ⟨α, hα, β, hβ, hcompatible, rfl⟩ := mem_join.mp h
        obtain ⟨ω, hω, hextends, hlifts⟩ := ih hα
        refine ⟨ω, hω, (extends_merge_left α β).trans hextends, ?_⟩
        intro ν hν hmem
        obtain ⟨hαν, hβν⟩ := (compatible_merge hcompatible).mp hν
        apply mem_optional.mpr
        left
        apply mem_join.mpr
        refine ⟨merge α ν, hlifts ν hαν hmem, β, hβ, ?_, ?_⟩
        · apply (compatible_merge hαν).mpr ⟨hcompatible, hβν.symm⟩
        · rw [merge_assoc, merge_assoc, merge_comm hβν]
      · obtain ⟨ω, hω, hextends, hlifts⟩ := ih h
        refine ⟨ω, hω, hextends, ?_⟩
        intro ν hν hmem
        apply mem_optional.mpr
        right
        use hlifts ν hν hmem
        intro β hβ hcompatible
        apply hnone β hβ (hcompatible.of_extends (extends_merge_left μ ν))

/-! ### Settled variables -/

/-- Whether a variable is settled: no solution has a value at all, or each has one for it. -/
def Settles (solutions : Solutions) (v : Variable) : Prop :=
  (∀ μ ∈ solutions, μ = empty) ∨ ∀ μ ∈ solutions, Binds μ v

theorem settles_unit :
  Settles unit v
  := .inl fun _ h => Multiset.mem_singleton.mp h

/-- Joined solutions have a value for what those on the left have a value for. -/
theorem binds_join (h : ∀ μ ∈ left, Binds μ v) :
    ∀ μ ∈ join left right, Binds μ v
  := by
  intro ν hν
  obtain ⟨⟨μ, hμ, hextends⟩, -⟩ := exists_extends_of_mem_join hν
  apply hextends.binds (h μ hμ)

theorem Settles.join (h : Settles left v) (h' : Settles right v) :
  Settles (Solutions.join left right) v
  := by
  rcases h with h | h
  · rcases h' with h' | h'
    · left
      intro ρ hρ
      obtain ⟨μ, hμ, ν, hν, -, rfl⟩ := mem_join.mp hρ
      rw [h μ hμ, h' ν hν, merge_empty]
    · right
      rw [join_comm]
      apply binds_join h'
  · right
    apply binds_join h

theorem settles_joinList {parts : List Solutions} (h : ∀ part ∈ parts, Settles part v) :
  Settles (joinList parts) v
  := by
  induction parts with
  | nil => apply settles_unit
  | cons part parts ih =>
      apply (h part List.mem_cons_self).join
      apply ih fun other hother => h other (List.mem_cons_of_mem _ hother)

/-- An optional part that has a value for a variable leaves it settled. -/
theorem Settles.optional (h : Settles left v) (h' : ∀ ν ∈ right, Binds ν v) :
  Settles (Solutions.optional left right) v
  := by
  rcases h with h | h
  · by_cases hright : ∃ ν, ν ∈ right
    · right
      intro ρ hρ
      rcases mem_optional.mp hρ with hρ | ⟨hρ, hnone⟩
      · rw [join_comm] at hρ
        apply binds_join h' ρ hρ
      · obtain ⟨ν, hν⟩ := hright
        rw [h ρ hρ] at hnone
        apply absurd (compatible_empty ν).symm (hnone ν hν)
    · left
      intro ρ hρ
      rcases mem_optional.mp hρ with hρ | ⟨hρ, -⟩
      · obtain ⟨μ, -, ν, hν, -⟩ := mem_join.mp hρ
        apply absurd ⟨ν, hν⟩ hright
      · apply h ρ hρ
  · right
    intro ρ hρ
    obtain ⟨μ, hμ, hextends⟩ := exists_extends_of_mem_optional hρ
    apply hextends.binds (h μ hμ)

theorem Settles.foldl_optional {parts : List Solutions} (h : Settles left v)
    (h' : ∀ part ∈ parts, ∀ ν ∈ part, Binds ν v) :
  Settles (parts.foldl Solutions.optional left) v
  := by
  induction parts generalizing left with
  | nil => apply h
  | cons part parts ih =>
      apply ih (h.optional (h' part List.mem_cons_self))
      intro other hother
      apply h' other (List.mem_cons_of_mem _ hother)

/-! ### Solutions that are kept -/

/-- When an optional part is added in the surroundings and shares only settled variables with the
whole, a solution is kept, possibly extended, except that the solution without values needs a
solution of the part which is compatible with the whole, if there is any solution of the part. -/
theorem Around.exists_extends_iff {rest part : Solutions} {vars : List Variable}
    (around : Around (Solutions.optional rest part) rest Ψ Ψ')
    (settled : ∀ v ∈ vars, Settles rest v)
    (shared : ∀ φ ∈ part, ∀ μ ∈ Ψ', ∀ v, Binds φ v → Binds μ v → v ∈ vars) (h : μ ∈ Ψ') :
  (∃ ν ∈ Ψ, Extends ν μ)
    ↔ (empty ∈ rest → (∃ φ, φ ∈ part) → ∃ φ ∈ part, Compatible φ μ)
  := by
  constructor
  · rintro ⟨ν, hν, hextends⟩ hempty ⟨φ, hφ⟩
    obtain ⟨ω, hω, hextends'⟩ := around.exists_extends hν
    rcases mem_optional.mp hω with hω | ⟨hω, hnone⟩
    · obtain ⟨-, φ', hφ', hextends''⟩ := exists_extends_of_mem_join hω
      use φ', hφ'
      apply compatible_of_extends (hextends'.trans hextends'') hextends
    · use φ, hφ
      apply compatible_of_disjoint
      intro v hv hv'
      rcases settled v (shared φ hφ μ h v hv hv') with hall | hall
      · rw [hall ω hω] at hnone
        apply hnone φ hφ (compatible_empty φ).symm
      · obtain ⟨a, ha⟩ := hall empty hempty
        cases ha
  · intro hneeds
    obtain ⟨ω, hω, hextends, hlifts⟩ := around.exists_lifts h
    -- It is enough to find a solution of the part that is compatible with the whole.
    have hwith (φ : Solution) (hφ : φ ∈ part) (hcompatible : Compatible φ μ) :
        ∃ ν ∈ Ψ, Extends ν μ := by
      refine ⟨merge μ φ, hlifts φ hcompatible.symm ?_, extends_merge_left μ φ⟩
      apply mem_optional.mpr
      left
      apply mem_join.mpr
      use ω, hω, φ, hφ, hcompatible.symm.of_extends hextends
    by_cases hnone : ∀ φ ∈ part, ¬ Compatible ω φ
    · refine ⟨merge μ empty, hlifts empty (compatible_empty μ) ?_, extends_merge_left μ empty⟩
      rw [merge_empty]
      apply mem_optional.mpr
      exact .inr ⟨hω, hnone⟩
    · push Not at hnone
      obtain ⟨φ, hφ, hcompatible⟩ := hnone
      by_cases hempty : ω = empty
      · subst hempty
        obtain ⟨φ', hφ', hcompatible'⟩ := hneeds hω ⟨φ, hφ⟩
        apply hwith φ' hφ' hcompatible'
      · apply hwith φ hφ
        intro v a b ha hb
        rcases settled v (shared φ hφ μ h v ⟨a, ha⟩ ⟨b, hb⟩) with hall | hall
        · apply absurd (hall ω hω) hempty
        · obtain ⟨c, hc⟩ := hall ω hω
          have hac := hcompatible v c a hc ha
          have hcb := (hextends v c hc).symm.trans hb
          rw [← hac, Option.some.inj hcb]

end LinkedQuery.Solutions
