import LinkedQuery.Proofs.Solutions.Evaluation

/-!
# Instances of basic patterns

The solutions of a basic pattern are the assignments of exactly its variables under which every
triple is a statement of the graph, and each of them is found once.
-/

namespace LinkedQuery

open Solution Solutions

/-- The node that a term is under a solution. -/
def Term.value (μ : Solution) : Term → Option Node
  | .var v => μ v
  | .iri value => some (.iri value)
  | .literal value => some (.literal value)

/-- Whether a triple is a statement under a solution. -/
def Triple.InstanceOf (triple : Triple) (μ : Solution) (statement : Statement) : Prop :=
  triple.subject.value μ = some (.resource statement.subject) ∧
    triple.predicate.term.value μ = some (.iri statement.predicate) ∧
    triple.object.value μ = some statement.object

/-- Whether the solutions in a multiset are found once and are exactly those with values for some
variables that have a property, which those values decide. -/
structure Solutions.Describes (solutions : Solutions) (vars : List Variable)
    (P : Solution → Prop) : Prop where
  nodup : solutions.Nodup
  mem_iff : ∀ μ, μ ∈ solutions ↔ (∀ v, Binds μ v ↔ v ∈ vars) ∧ P μ
  congr : ∀ μ ν, (∀ v ∈ vars, μ v = ν v) → (P μ ↔ P ν)

/-- The values of a solution for some variables. -/
def Solution.restrict (μ : Solution) (vars : List Variable) : Solution :=
  fun v => if v ∈ vars then μ v else none

theorem Solution.binds_restrict {μ : Solution} {vars : List Variable} {v : Variable} :
  Binds (μ.restrict vars) v ↔ v ∈ vars ∧ Binds μ v
  := by
  simp [Binds, restrict]

/-- A term is the same node under solutions that agree on its variable. -/
theorem Term.value_congr {term : Term} {μ ν : Solution} (h : ∀ v ∈ term.vars, μ v = ν v) :
  term.value μ = term.value ν
  := by
  cases term with
  | var v => apply h v (by simp)
  | iri value => rfl
  | literal value => rfl

/-- A part of a solution with values for exactly some variables is the restriction to them. -/
theorem Solution.Extends.eq_restrict {μ ρ : Solution} {vars : List Variable}
    (h : Extends ρ μ) (hvars : ∀ v, Binds μ v ↔ v ∈ vars) :
  μ = ρ.restrict vars
  := by
  funext v
  rw [restrict]
  split
  · obtain ⟨a, ha⟩ := (hvars v).mpr ‹_›
    rw [ha, h v a ha]
  · cases ha : μ v with
    | none => rfl
    | some a => exact absurd ((hvars v).mp ⟨a, ha⟩) ‹_›

theorem Solution.extends_restrict (μ : Solution) (vars : List Variable) :
  Extends μ (μ.restrict vars)
  := by
  intro v a h
  simp only [restrict, Option.ite_none_right_eq_some] at h
  apply h.2

/-- A solution is put together from its values for some variables and those for the others. -/
theorem Solution.merge_restrict {ρ : Solution} {vars vars' : List Variable}
    (h : ∀ v, Binds ρ v ↔ v ∈ vars ++ vars') :
  merge (ρ.restrict vars) (ρ.restrict vars') = ρ
  := by
  funext v
  simp only [merge, restrict]
  cases ha : ρ v with
  | none => simp
  | some a =>
      have hv := (h v).mp ⟨a, ha⟩
      rcases List.mem_append.mp hv with hv | hv
      · simp [hv]
      · by_cases hv' : v ∈ vars
        · simp [hv']
        · simp [hv, hv']

/-! ### Descriptions -/

namespace Solutions.Describes

theorem unit :
  Solutions.unit.Describes [] fun _ => True
  := by
  constructor
  · apply Multiset.nodup_singleton
  · intro μ
    rw [Solutions.unit, Multiset.mem_singleton]
    constructor
    · rintro rfl
      simp [Binds, empty]
    · rintro ⟨h, -⟩
      funext v
      cases ha : μ v with
      | none => rfl
      | some a => simpa using (h v).mp ⟨a, ha⟩
  · intro μ ν _
    rfl

variable {left right : Solutions} {vars vars' : List Variable} {P Q : Solution → Prop}

/-- A description says the same with another description of the property. -/
theorem imp (h : left.Describes vars P) (hP : ∀ μ, P μ ↔ Q μ) :
  left.Describes vars Q
  := by
  constructor
  · apply h.nodup
  · intro μ
    rw [h.mem_iff, hP]
  · intro μ ν hμν
    rw [← hP, ← hP]
    apply h.congr μ ν hμν

/-- A described solution is a part of any solution that extends it. -/
theorem eq_restrict (h : left.Describes vars P) {μ ρ : Solution} (hμ : μ ∈ left)
    (hextends : Extends ρ μ) :
  μ = ρ.restrict vars
  := hextends.eq_restrict ((h.mem_iff μ).mp hμ).1

/-- A part of a solution has the property if the solution has it. -/
theorem restrict_mem (h : left.Describes vars P) {ρ : Solution} (hvars : ∀ v ∈ vars, Binds ρ v)
    (hP : P ρ) :
  ρ.restrict vars ∈ left
  := by
  apply (h.mem_iff _).mpr
  constructor
  · intro v
    rw [binds_restrict]
    simp +contextual [hvars]
  · apply (h.congr ρ _ _).mp hP
    intro v hv
    simp [restrict, hv]

/-- A solution has the property if a part of it is a described solution. -/
theorem of_extends (h : left.Describes vars P) {μ ρ : Solution} (hμ : μ ∈ left)
    (hextends : Extends ρ μ) :
  P ρ
  := by
  obtain ⟨hvars, hP⟩ := (h.mem_iff μ).mp hμ
  apply (h.congr μ ρ _).mp hP
  intro v hv
  obtain ⟨a, ha⟩ := (hvars v).mpr hv
  rw [ha, hextends v a ha]

/-- Each joined solution is found once: it tells its parts. -/
theorem nodup_join (h : left.Describes vars P) (h' : right.Describes vars' Q) :
  (Solutions.join left right).Nodup
  := by
  rw [Solutions.join, Multiset.nodup_bind]
  constructor
  · intro μ hμ
    rw [Multiset.nodup_bind]
    constructor
    · intro ν _
      rw [combine]
      split
      · apply Multiset.nodup_singleton
      · apply Multiset.nodup_zero
    · apply Multiset.Nodup.pairwise _ h'.nodup
      intro ν hν ν' hν' hne
      apply Multiset.disjoint_left.mpr
      intro ρ hρ hρ'
      obtain ⟨hcompatible, rfl⟩ := mem_combine.mp hρ
      obtain ⟨hcompatible', heq⟩ := mem_combine.mp hρ'
      apply hne
      rw [h'.eq_restrict hν (extends_merge_right hcompatible), heq,
        ← h'.eq_restrict hν' (extends_merge_right hcompatible')]
  · apply Multiset.Nodup.pairwise _ h.nodup
    intro μ hμ μ' hμ' hne
    apply Multiset.disjoint_left.mpr
    intro ρ hρ hρ'
    obtain ⟨ν, -, hρ⟩ := Multiset.mem_bind.mp hρ
    obtain ⟨ν', -, hρ'⟩ := Multiset.mem_bind.mp hρ'
    obtain ⟨-, rfl⟩ := mem_combine.mp hρ
    obtain ⟨-, heq⟩ := mem_combine.mp hρ'
    apply hne
    rw [h.eq_restrict hμ (extends_merge_left μ ν), heq,
      ← h.eq_restrict hμ' (extends_merge_left μ' ν')]

/-- The joined solutions have the properties of both parts. -/
theorem join (h : left.Describes vars P) (h' : right.Describes vars' Q) :
  (Solutions.join left right).Describes (vars ++ vars') fun μ => P μ ∧ Q μ
  := by
  constructor
  · apply nodup_join h h'
  · intro ρ
    constructor
    · intro hρ
      obtain ⟨μ, hμ, ν, hν, hcompatible, rfl⟩ := mem_join.mp hρ
      refine ⟨?_, h.of_extends hμ (extends_merge_left μ ν),
        h'.of_extends hν (extends_merge_right hcompatible)⟩
      intro v
      rw [binds_merge, ((h.mem_iff μ).mp hμ).1, ((h'.mem_iff ν).mp hν).1, List.mem_append]
    · rintro ⟨hvars, hP, hQ⟩
      have hleft := h.restrict_mem
        (fun v hv => (hvars v).mpr (List.mem_append_left _ hv)) hP
      have hright := h'.restrict_mem
        (fun v hv => (hvars v).mpr (List.mem_append_right _ hv)) hQ
      apply mem_join.mpr
      refine ⟨_, hleft, _, hright, ?_, (merge_restrict hvars).symm⟩
      apply compatible_of_extends (extends_restrict ρ vars) (extends_restrict ρ vars')
  · intro μ ν hμν
    apply and_congr
    · apply h.congr
      intro v hv
      apply hμν v (List.mem_append_left _ hv)
    · apply h'.congr
      intro v hv
      apply hμν v (List.mem_append_right _ hv)

/-- Solutions for one thing or another, which they tell apart. -/
theorem bind {α : Type} {things : Finset α} {solutions : α → Solutions}
    {P : α → Solution → Prop} (h : ∀ thing ∈ things, (solutions thing).Describes vars (P thing))
    (unique : ∀ thing other μ, P thing μ → P other μ → thing = other)
    (congr : ∀ μ ν, (∀ v ∈ vars, μ v = ν v) → ∀ thing, P thing μ ↔ P thing ν) :
  Solutions.Describes (things.val.bind solutions) vars fun μ => ∃ thing ∈ things, P thing μ
  := by
  constructor
  · rw [Multiset.nodup_bind]
    constructor
    · intro thing hthing
      apply (h thing hthing).nodup
    · apply Multiset.Nodup.pairwise _ things.nodup
      intro thing hthing other hother hne
      apply Multiset.disjoint_left.mpr
      intro μ hμ hμ'
      apply hne
      apply unique thing other μ (((h thing hthing).mem_iff μ).mp hμ).2
      apply (((h other hother).mem_iff μ).mp hμ').2
  · intro μ
    rw [Multiset.mem_bind]
    constructor
    · rintro ⟨thing, hthing, hμ⟩
      obtain ⟨hvars, hP⟩ := ((h thing hthing).mem_iff μ).mp hμ
      exact ⟨hvars, thing, hthing, hP⟩
    · rintro ⟨hvars, thing, hthing, hP⟩
      exact ⟨thing, hthing, ((h thing hthing).mem_iff μ).mpr ⟨hvars, hP⟩⟩
  · intro μ ν hμν
    simp only [congr μ ν hμν]

end Solutions.Describes

/-! ### Terms, triples and basic patterns -/

/-- The solutions under which a term is a node. -/
theorem Term.describes (term : Term) (node : Node) :
  (term.solutions node).Describes term.vars fun μ => term.value μ = some node
  := by
  have hconstant (value : Node) (hvalue : ∀ μ, term.value μ = some value)
      (hvars : term.vars = [])
      (hsolutions : term.solutions node = if node = value then Solutions.unit else 0) :
      (term.solutions node).Describes term.vars fun μ => term.value μ = some node := by
    rw [hsolutions, hvars]
    split
    · rename_i heq
      apply Solutions.Describes.unit.imp
      simp [hvalue, heq]
    · rename_i hne
      constructor
      · apply Multiset.nodup_zero
      · intro μ
        simp [hvalue, Ne.symm hne]
      · intro μ ν _
        simp [hvalue]
  cases term with
  | iri value => apply hconstant (.iri value) (fun _ => rfl) rfl rfl
  | literal value => apply hconstant (.literal value) (fun _ => rfl) rfl rfl
  | var w =>
      constructor
      · apply Multiset.nodup_singleton
      · intro μ
        rw [Term.solutions, Multiset.mem_singleton]
        constructor
        · rintro rfl
          simp [Binds, single, Term.value]
        · rintro ⟨hvars, hw⟩
          rw [Term.value] at hw
          funext v
          rw [single]
          split
          · rename_i heq
            rw [heq, hw]
          · rename_i hne
            cases ha : μ v with
            | none => rfl
            | some a =>
                have := (hvars v).mp ⟨a, ha⟩
                simp [hne] at this
      · intro μ ν h
        rw [Term.value_congr h]

theorem Triple.InstanceOf.unique {triple : Triple} {μ : Solution} {first second : Statement}
    (h : triple.InstanceOf μ first) (h' : triple.InstanceOf μ second) :
  first = second
  := by
  obtain ⟨subject, predicate, object⟩ := first
  obtain ⟨subject', predicate', object'⟩ := second
  simp only [InstanceOf] at h h'
  simp_all

theorem Triple.instanceOf_congr {triple : Triple} {μ ν : Solution}
    (h : ∀ v ∈ triple.vars, μ v = ν v) (statement : Statement) :
  triple.InstanceOf μ statement ↔ triple.InstanceOf ν statement
  := by
  simp only [Triple.vars, Name.vars, List.mem_append] at h
  rw [InstanceOf, InstanceOf, Term.value_congr fun v hv => h v (.inl (.inl hv)),
    Term.value_congr fun v hv => h v (.inl (.inr hv)), Term.value_congr fun v hv => h v (.inr hv)]

/-- The solutions under which a triple is in a graph. -/
theorem Triple.describes (triple : Triple) (graph : Finset Statement) :
  (triple.solutions graph).Describes triple.vars fun μ =>
    ∃ statement ∈ graph, triple.InstanceOf μ statement
  := by
  apply Solutions.Describes.bind
  · intro statement _
    have h := (triple.subject.describes (.resource statement.subject)).join
      ((triple.predicate.term.describes (.iri statement.predicate)).join
        (triple.object.describes statement.object))
    rw [← List.append_assoc] at h
    apply h
  · intro first second μ
    apply InstanceOf.unique
  · intro μ ν h
    apply instanceOf_congr h

/-- The solutions of a basic pattern are the assignments of its variables under which the graph
has all of its triples, each found once. -/
theorem Pattern.describes_basic (dataset : Dataset) (active : Finset Statement)
    (triples : List Triple) :
  ((basic triples).solutions dataset active).Describes (basic triples).vars fun μ =>
    ∀ triple ∈ triples, ∃ statement ∈ active, triple.InstanceOf μ statement
  := by
  induction triples with
  | nil => apply Solutions.Describes.unit.imp (by simp)
  | cons triple triples ih =>
      have h := (triple.describes active).join ih
      apply h.imp
      simp

/-- The row of a statement for two variables, of its subject and of its object. -/
def Statement.row (statement : Statement) (subject object : Variable) : Solution :=
  merge (single subject (.resource statement.subject)) (single object statement.object)

/-- The solutions of a triple between two variables are the rows of the statements with its
predicate. -/
theorem Pattern.mem_solutions_triple (dataset : Dataset) (active : Finset Statement)
    {subject object : Variable} (hne : subject ≠ object) {predicate : String} {μ : Solution} :
  μ ∈ (basic [⟨.var subject, .iri predicate, .var object⟩]).solutions dataset active
    ↔ ∃ statement ∈ active, statement.predicate = predicate ∧ μ = statement.row subject object
  := by
  rw [(describes_basic dataset active _).mem_iff]
  simp only [List.forall_mem_singleton, Triple.InstanceOf, Term.value, Name.term,
    Option.some.injEq, Node.resource.injEq, Resource.iri.injEq]
  constructor
  · rintro ⟨hvars, statement, hstatement, hsubject, rfl, hobject⟩
    refine ⟨statement, hstatement, rfl, ?_⟩
    funext v
    by_cases hv : v = subject
    · rw [hv, hsubject]
      simp [Statement.row, merge, single]
    · by_cases hv' : v = object
      · rw [hv', hobject]
        simp [Statement.row, merge, single, hne.symm]
      · cases ha : μ v with
        | none => simp [Statement.row, merge, single, hv, hv']
        | some a =>
            have := (hvars v).mp ⟨a, ha⟩
            simp [Pattern.vars, Triple.vars, Name.vars, Name.term, Term.vars, hv, hv'] at this
  · rintro ⟨statement, hstatement, rfl, rfl⟩
    refine ⟨?_, statement, hstatement, ?_, rfl, ?_⟩
    · intro v
      simp [Statement.row, binds_merge, Pattern.vars, Triple.vars, Name.vars, Name.term,
        Term.vars]
    · simp [Statement.row, merge, single]
    · simp [Statement.row, merge, single, hne.symm]

end LinkedQuery
