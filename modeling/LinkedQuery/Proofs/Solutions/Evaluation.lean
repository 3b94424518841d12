import LinkedQuery.Proofs.Solutions.Operators
import LinkedQuery.Proofs.Variables.Occurrence
import Mathlib.Data.Finset.Image
import Mathlib.Logic.Relation

/-!
# Solutions of patterns

`Pattern.solutions` are the solutions of a pattern in a graph of a dataset.  The values of a
solution are nodes for variables of the pattern.  The solutions of a basic pattern are the
assignments of its variables under which the graph has all of its triples, and those of a
conjunction are the joins of the solutions of its parts.
-/

namespace LinkedQuery

open Solution Solutions

/-! ### Terms and triples -/

/-- The solutions under which a term is a node: one or none. -/
def Term.solutions : Term → Node → Solutions
  | .var v, node => {single v node}
  | .iri value, node => if node = .iri value then unit else 0
  | .literal value, node => if node = .literal value then unit else 0

/-- The solutions under which a triple is a statement. -/
noncomputable def Triple.solutionsAt (triple : Triple) (statement : Statement) : Solutions :=
  join (triple.subject.solutions (.resource statement.subject))
    (join (triple.predicate.term.solutions (.iri statement.predicate))
      (triple.object.solutions statement.object))

/-- The solutions under which a triple is in a graph. -/
noncomputable def Triple.solutions (graph : Finset Statement) (triple : Triple) : Solutions :=
  graph.val.bind triple.solutionsAt

/-! ### Lists -/

/-- The subjects and objects of a graph. -/
def nodes (graph : Finset Statement) : Finset Node :=
  graph.image (fun statement => .resource statement.subject) ∪ graph.image Statement.object

/-- Whether a graph says that a list goes on with another. -/
def Follows (graph : Finset Statement) (list rest : Node) : Prop :=
  ∃ statement ∈ graph, .resource statement.subject = list ∧
    statement.predicate = Vocabulary.rdfRest ∧ statement.object = rest

open scoped Classical in
/-- The solutions under which a term has a member: any number of steps to the rest of a list, and
one to its first, each way to a member counted once. -/
noncomputable def memberSolutions (graph : Finset Statement) (list member : Term) : Solutions :=
  graph.val.bind fun statement =>
    if statement.predicate = Vocabulary.rdfFirst then
      (nodes graph).val.bind fun node =>
        if Relation.ReflTransGen (Follows graph) node (.resource statement.subject) then
          join (list.solutions node) (member.solutions statement.object)
        else 0
    else 0

/-! ### Patterns -/

/-- The solutions of a pattern in the active graph of a dataset. -/
noncomputable def Pattern.solutions (dataset : Dataset) : Pattern → Finset Statement → Solutions
  | .basic triples, active => joinList (triples.map (Triple.solutions active))
  | .members list member, active => memberSolutions active list member
  | .join left right, active =>
    Solutions.join (solutions dataset left active) (solutions dataset right active)
  | .leftJoin left right, active =>
    optional (solutions dataset left active) (solutions dataset right active)
  | .graph (.iri name) inner, _ =>
    if name ∈ dataset.names then solutions dataset inner (dataset.named name) else 0
  | .graph (.var v) inner, _ =>
    dataset.names.val.bind fun name =>
      Solutions.join (solutions dataset inner (dataset.named name)) {single v (.iri name)}
  | .project inner selected, active =>
    (solutions dataset inner active).map fun μ v => if v ∈ selected then μ v else none

/-- The solutions of a pattern over a dataset, in its default graph. -/
noncomputable def Pattern.over (pattern : Pattern) (dataset : Dataset) : Solutions :=
  pattern.solutions dataset dataset.default

/-! ### Values are for variables -/

theorem Term.mem_vars_of_binds {term : Term} {node : Node} {μ : Solution} {v : Variable}
    (h : μ ∈ term.solutions node) (hv : Binds μ v) :
  v ∈ term.vars
  := by
  obtain ⟨a, ha⟩ := hv
  cases term with
  | var w =>
      rw [Term.solutions, Multiset.mem_singleton] at h
      subst h
      simp only [single, Option.ite_none_right_eq_some] at ha
      simp [ha.1]
  | iri value | literal value =>
      rw [Term.solutions] at h
      split at h
      · rw [unit, Multiset.mem_singleton] at h
        subst h
        cases ha
      · simp at h

/-- What a joined solution has a value for, one of its parts has a value for. -/
theorem exists_binds_of_mem_join {left right : Solutions} {μ : Solution} {v : Variable}
    (h : μ ∈ Solutions.join left right) (hv : Binds μ v) :
  (∃ ν ∈ left, Binds ν v) ∨ ∃ ν ∈ right, Binds ν v
  := by
  obtain ⟨ν, hν, ρ, hρ, -, rfl⟩ := mem_join.mp h
  rcases binds_merge.mp hv with hv | hv
  · exact .inl ⟨ν, hν, hv⟩
  · exact .inr ⟨ρ, hρ, hv⟩

theorem Triple.mem_vars_of_binds {triple : Triple} {graph : Finset Statement} {μ : Solution}
    {v : Variable} (h : μ ∈ triple.solutions graph) (hv : Binds μ v) :
  v ∈ triple.vars
  := by
  obtain ⟨statement, -, h⟩ := Multiset.mem_bind.mp h
  rw [Triple.vars, Name.vars, List.mem_append, List.mem_append]
  rcases exists_binds_of_mem_join h hv with ⟨ν, hν, hv⟩ | ⟨ν, hν, hv⟩
  · exact .inl (.inl (Term.mem_vars_of_binds hν hv))
  · rcases exists_binds_of_mem_join hν hv with ⟨ρ, hρ, hv⟩ | ⟨ρ, hρ, hv⟩
    · exact .inl (.inr (Term.mem_vars_of_binds hρ hv))
    · exact .inr (Term.mem_vars_of_binds hρ hv)

theorem mem_vars_of_binds_memberSolutions {graph : Finset Statement} {list member : Term}
    {μ : Solution} {v : Variable} (h : μ ∈ memberSolutions graph list member) (hv : Binds μ v) :
  v ∈ list.vars ∨ v ∈ member.vars
  := by
  obtain ⟨statement, -, h⟩ := Multiset.mem_bind.mp h
  split at h
  · obtain ⟨node, -, h⟩ := Multiset.mem_bind.mp h
    split at h
    · rcases exists_binds_of_mem_join h hv with ⟨ν, hν, hv⟩ | ⟨ν, hν, hv⟩
      · exact .inl (Term.mem_vars_of_binds hν hv)
      · exact .inr (Term.mem_vars_of_binds hν hv)
    · simp at h
  · simp at h

/-- What a solution of several joined parts has a value for, one of the parts has. -/
theorem exists_binds_of_mem_joinList {parts : List Solutions} {μ : Solution} {v : Variable}
    (h : μ ∈ joinList parts) (hv : Binds μ v) :
  ∃ part ∈ parts, ∃ ν ∈ part, Binds ν v
  := by
  induction parts generalizing μ with
  | nil =>
      rw [joinList_nil, unit, Multiset.mem_singleton] at h
      subst h
      obtain ⟨a, ha⟩ := hv
      cases ha
  | cons part parts ih =>
      rw [joinList_cons] at h
      rcases exists_binds_of_mem_join h hv with ⟨ν, hν, hv⟩ | ⟨ν, hν, hv⟩
      · exact ⟨part, List.mem_cons_self, ν, hν, hv⟩
      · obtain ⟨other, hother, h⟩ := ih hν hv
        exact ⟨other, List.mem_cons_of_mem _ hother, h⟩

/-- The values of a solution are for variables of the pattern. -/
theorem Pattern.mem_vars_of_binds {dataset : Dataset} {pattern : Pattern}
    {active : Finset Statement} {μ : Solution} {v : Variable}
    (h : μ ∈ pattern.solutions dataset active) (hv : Binds μ v) :
  v ∈ pattern.vars
  := by
  induction pattern generalizing active μ with
  | basic triples =>
      rw [Pattern.solutions] at h
      obtain ⟨part, hpart, ν, hν, hv⟩ := exists_binds_of_mem_joinList h hv
      obtain ⟨triple, htriple, rfl⟩ := List.mem_map.mp hpart
      rw [Pattern.vars, List.mem_flatMap]
      exact ⟨triple, htriple, Triple.mem_vars_of_binds hν hv⟩
  | members list member =>
      rw [Pattern.vars, List.mem_append]
      apply mem_vars_of_binds_memberSolutions h hv
  | join left right ihl ihr =>
      rw [Pattern.vars, List.mem_append]
      rcases exists_binds_of_mem_join h hv with ⟨ν, hν, hv⟩ | ⟨ν, hν, hv⟩
      · exact .inl (ihl hν hv)
      · exact .inr (ihr hν hv)
  | leftJoin left right ihl ihr =>
      rw [Pattern.vars, List.mem_append]
      rcases mem_optional.mp h with h | ⟨h, -⟩
      · rcases exists_binds_of_mem_join h hv with ⟨ν, hν, hv⟩ | ⟨ν, hν, hv⟩
        · exact .inl (ihl hν hv)
        · exact .inr (ihr hν hv)
      · exact .inl (ihl h hv)
  | graph name inner ih =>
      rw [Pattern.vars, List.mem_append]
      cases name with
      | iri name =>
          rw [Pattern.solutions] at h
          split at h
          · exact .inr (ih h hv)
          · simp at h
      | var w =>
          obtain ⟨name, -, h⟩ := Multiset.mem_bind.mp h
          rcases exists_binds_of_mem_join h hv with ⟨ν, hν, hv⟩ | ⟨ν, hν, hv⟩
          · exact .inr (ih hν hv)
          · left
            have hw : v ∈ (Term.var w).vars := Term.mem_vars_of_binds hν hv
            apply hw
  | project inner selected ih =>
      rw [Pattern.vars, List.mem_append]
      obtain ⟨ν, hν, rfl⟩ := Multiset.mem_map.mp h
      obtain ⟨a, ha⟩ := hv
      simp only [Option.ite_none_right_eq_some] at ha
      exact .inl (ih hν ⟨a, ha.2⟩)

/-! ### Conjunctions -/

namespace Pattern

variable (dataset : Dataset) (active : Finset Statement)

/-- The empty pattern matches once. -/
@[simp]
theorem solutions_empty :
  empty.solutions dataset active = unit
  := rfl

theorem solutions_basic_append (triples more : List Triple) :
  (basic (triples ++ more)).solutions dataset active
    = Solutions.join ((basic triples).solutions dataset active)
        ((basic more).solutions dataset active)
  := by
  simp only [Pattern.solutions, List.map_append, joinList_append]

/-- Putting basic patterns together keeps the join. -/
theorem joinList_mergeBasics (parts : List Pattern) :
  joinList ((mergeBasics parts).map fun part => part.solutions dataset active)
    = joinList (parts.map fun part => part.solutions dataset active)
  := by
  fun_induction mergeBasics parts with
  | case1 => rfl
  | case2 parts ih =>
      rw [ih, List.map_cons, joinList_cons]
      apply (unit_join _).symm
  | case3 parts first more triples merged heq ih =>
      rw [List.map_cons, List.map_cons, joinList_cons, joinList_cons, ← ih, heq, List.map_cons,
        joinList_cons, solutions_basic_append, join_assoc]
  | case4 parts first more _ ih =>
      rw [List.map_cons, List.map_cons, joinList_cons, joinList_cons, ih]
  | case5 part parts _ ih =>
      rw [List.map_cons, List.map_cons, joinList_cons, joinList_cons, ih]

theorem solutions_foldl_join (first : Pattern) (parts : List Pattern) :
  (parts.foldl join first).solutions dataset active
    = Solutions.join (first.solutions dataset active)
        (joinList (parts.map fun part => part.solutions dataset active))
  := by
  induction parts generalizing first with
  | nil => simp
  | cons part parts ih =>
      rw [List.foldl_cons, ih, List.map_cons, joinList_cons, ← join_assoc]
      rfl

theorem solutions_foldl_leftJoin (first : Pattern) (parts : List Pattern) :
  (parts.foldl leftJoin first).solutions dataset active
    = (parts.map fun part => part.solutions dataset active).foldl optional
        (first.solutions dataset active)
  := by
  induction parts generalizing first with
  | nil => rfl
  | cons part parts ih =>
      rw [List.foldl_cons, ih, List.map_cons, List.foldl_cons]
      rfl

/-- The solutions of a conjunction are the joins of the solutions of its parts. -/
theorem solutions_joinAll (parts : List Pattern) :
  (joinAll parts).solutions dataset active
    = joinList (parts.map fun part => part.solutions dataset active)
  := by
  rw [← joinList_mergeBasics, joinAll]
  cases mergeBasics parts with
  | nil => rfl
  | cons first rest => rw [solutions_foldl_join, List.map_cons, joinList_cons]

end Pattern

end LinkedQuery
