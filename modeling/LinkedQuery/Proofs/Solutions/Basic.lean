import LinkedQuery.Rdf.Term
import Mathlib.Data.Finset.Basic

/-!
# Datasets and solutions

A `Dataset` is a default graph with named graphs beside it, and a `Solution` gives values to some
variables.  Two solutions are compatible when they agree on the variables that they share, and then
`Solution.merge` is what they say together.
-/

namespace LinkedQuery

/-! ### Datasets -/

/-- What may be the subject of a statement. -/
inductive Resource where
  | iri (value : String)
  | blank (label : String)
deriving DecidableEq

/-- What a variable may stand for. -/
inductive Node where
  | resource (resource : Resource)
  | literal (value : Literal)
deriving DecidableEq

/-- The node that an IRI names. -/
abbrev Node.iri (value : String) : Node := .resource (.iri value)

/-- A triple of a graph. -/
structure Statement where
  subject : Resource
  predicate : String
  object : Node
deriving DecidableEq

/-- A default graph, and graphs with names. -/
structure Dataset where
  default : Finset Statement
  names : Finset String := ∅
  named : String → Finset Statement := fun _ => ∅

/-! ### Solutions -/

/-- Values for some variables. -/
abbrev Solution := Variable → Option Node

namespace Solution

/-- The solution without values. -/
def empty : Solution := fun _ => none

/-- The solution with one value. -/
def single (v : Variable) (node : Node) : Solution :=
  fun w => if w = v then some node else none

/-- Whether two solutions agree where both have values. -/
def Compatible (μ ν : Solution) : Prop :=
  ∀ v a b, μ v = some a → ν v = some b → a = b

/-- The values of two solutions, those of the first first. -/
def merge (μ ν : Solution) : Solution := fun v => (μ v).or (ν v)

/-- Whether a solution has all values of another. -/
def Extends (ν μ : Solution) : Prop :=
  ∀ v a, μ v = some a → ν v = some a

/-- Whether a solution has a value for a variable. -/
def Binds (μ : Solution) (v : Variable) : Prop := ∃ a, μ v = some a

variable {μ ν ρ : Solution}

theorem compatible_empty (μ : Solution) :
  Compatible μ empty
  := by
  intro v a b _ h
  cases h

theorem Compatible.symm (h : Compatible μ ν) :
  Compatible ν μ
  := by
  intro v a b ha hb
  exact (h v b a hb ha).symm

@[simp]
theorem merge_empty (μ : Solution) :
  merge μ empty = μ
  := by
  funext v
  simp [merge, empty]

theorem merge_assoc (μ ν ρ : Solution) :
  merge (merge μ ν) ρ = merge μ (merge ν ρ)
  := by
  funext v
  simp [merge, Option.or_assoc]

theorem merge_comm (h : Compatible μ ν) :
  merge μ ν = merge ν μ
  := by
  funext v
  simp only [merge]
  cases hμ : μ v with
  | none => simp
  | some a =>
      cases hν : ν v with
      | none => rfl
      | some b => simp [h v a b hμ hν]

/-! ### Extensions -/

theorem Extends.refl (μ : Solution) :
  Extends μ μ
  := fun _ _ h => h

theorem Extends.trans (h : Extends ρ ν) (h' : Extends ν μ) :
  Extends ρ μ
  := fun v a ha => h v a (h' v a ha)

theorem extends_merge_left (μ ν : Solution) :
  Extends (merge μ ν) μ
  := by
  intro v a h
  simp [merge, h]

theorem extends_merge_right (h : Compatible μ ν) :
  Extends (merge μ ν) ν
  := by
  rw [merge_comm h]
  apply extends_merge_left

/-- Less is compatible with more. -/
theorem Compatible.of_extends (h : Compatible ν ρ) (h' : Extends ν μ) :
  Compatible μ ρ
  := fun v a b ha hb => h v a b (h' v a ha) hb

/-- Parts of one solution are compatible. -/
theorem compatible_of_extends (h : Extends ρ μ) (h' : Extends ρ ν) :
  Compatible μ ν
  := by
  intro v a b ha hb
  have := (h v a ha).symm.trans (h' v b hb)
  apply Option.some.inj this

/-- What is compatible with a merger is compatible with its parts, and the other way around. -/
theorem compatible_merge (h : Compatible μ ν) :
  Compatible (merge μ ν) ρ ↔ Compatible μ ρ ∧ Compatible ν ρ
  := by
  constructor
  · intro hρ
    exact ⟨hρ.of_extends (extends_merge_left μ ν), hρ.of_extends (extends_merge_right h)⟩
  · rintro ⟨hμ, hν⟩ v a b ha hb
    simp only [merge, Option.or_eq_some_iff] at ha
    rcases ha with ha | ⟨-, ha⟩
    · apply hμ v a b ha hb
    · apply hν v a b ha hb

/-- Solutions without a common variable are compatible. -/
theorem compatible_of_disjoint (h : ∀ v, Binds μ v → ¬ Binds ν v) :
  Compatible μ ν
  := by
  intro v a b ha hb
  exact absurd ⟨b, hb⟩ (h v ⟨a, ha⟩)

@[simp]
theorem binds_single {v w : Variable} {node : Node} :
  Binds (single v node) w ↔ w = v
  := by
  simp [Binds, single]

theorem binds_merge {v : Variable} :
  Binds (merge μ ν) v ↔ Binds μ v ∨ Binds ν v
  := by
  simp only [Binds, merge, Option.or_eq_some_iff]
  cases hμ : μ v with
  | none => simp
  | some a => simp

theorem Extends.binds {v : Variable} (h : Extends ν μ) (hv : Binds μ v) :
  Binds ν v
  := by
  obtain ⟨a, ha⟩ := hv
  exact ⟨a, h v a ha⟩

end Solution

end LinkedQuery
