import LinkedQuery.Proofs.Solutions.Instance
import Mathlib.Data.Finset.Pi

/-!
# Conjunctions

`Pattern.evaluate` gives the solutions of a pattern as the query language defines them: a basic
pattern is matched as a whole, by the assignments of terms of the graph to its variables under which
the graph has all of its triples.  It has the same solutions as the join of its triples, so basic
patterns can be put together, and `Pattern.joinAll` means the join of its parts and keeps their
conditions in order.
-/

namespace LinkedQuery

open Solution Solutions

/-! ### Matching a basic pattern -/

/-- The solution with given values for exactly some variables. -/
def Solution.assigning {vars : Finset Variable} (values : ∀ v ∈ vars, Node) : Solution :=
  fun v => if h : v ∈ vars then some (values v h) else none

/-- The terms of a graph: subjects, predicates and objects. -/
def terms (graph : Finset Statement) : Finset Node :=
  nodes graph ∪ graph.image fun statement => .iri statement.predicate

open scoped Classical in
/-- The matches of a basic pattern: the assignments of terms of the graph to exactly the variables
of the pattern under which every triple is a statement of the graph, each assignment once. -/
noncomputable def matchings (graph : Finset Statement) (triples : List Triple) : Solutions :=
  (((Pattern.basic triples).vars.toFinset.pi fun _ => terms graph).val.map assigning).filter
    fun μ => ∀ triple ∈ triples, ∃ statement ∈ graph, triple.InstanceOf μ statement

namespace Solution

variable {vars : Finset Variable}

theorem binds_assigning {values : ∀ v ∈ vars, Node} {v : Variable} :
  Binds (assigning values) v ↔ v ∈ vars
  := by
  simp [Binds, assigning]

theorem assigning_injective :
  Function.Injective (@assigning vars)
  := by
  intro values values' h
  funext v hv
  simpa [assigning, hv] using congrFun h v

/-- A solution with values for exactly some variables assigns them. -/
theorem exists_assigning {μ : Solution} (h : ∀ v, Binds μ v ↔ v ∈ vars) :
  ∃ values : ∀ v ∈ vars, Node, assigning values = μ ∧ ∀ v hv, μ v = some (values v hv)
  := by
  have hvalue (v : Variable) (hv : v ∈ vars) : ∃ node, μ v = some node := (h v).mpr hv
  choose values hvalues using hvalue
  refine ⟨values, ?_, hvalues⟩
  funext v
  by_cases hv : v ∈ vars
  · simp [assigning, hv, hvalues v hv]
  · cases ha : μ v with
    | none => simp [assigning, hv]
    | some node => exact absurd ((h v).mp ⟨node, ha⟩) hv

end Solution

/-- What a triple has for its variables, where it is a statement, are terms of the graph. -/
theorem Triple.InstanceOf.mem_terms {triple : Triple} {μ : Solution} {statement : Statement}
    {graph : Finset Statement} (h : triple.InstanceOf μ statement) (hstatement : statement ∈ graph)
    {v : Variable} {node : Node} (hv : v ∈ triple.vars) (hnode : μ v = some node) :
  node ∈ terms graph
  := by
  have hvalue {term : Term} (hterm : v ∈ term.vars) : term.value μ = some node := by
    cases term with
    | var w =>
        obtain rfl : v = w := by simpa using hterm
        apply hnode
    | _ => cases hterm
  obtain ⟨hsubject, hpredicate, hobject⟩ := h
  simp only [Triple.vars, Name.vars, List.mem_append] at hv
  simp only [terms, nodes, Finset.mem_union, Finset.mem_image]
  rcases hv with (hv | hv) | hv
  · have heq := Option.some.inj ((hvalue hv).symm.trans hsubject)
    exact .inl (.inl ⟨statement, hstatement, heq.symm⟩)
  · have heq := Option.some.inj ((hvalue hv).symm.trans hpredicate)
    exact .inr ⟨statement, hstatement, heq.symm⟩
  · have heq := Option.some.inj ((hvalue hv).symm.trans hobject)
    exact .inl (.inr ⟨statement, hstatement, heq.symm⟩)

open scoped Classical in
/-- Each match is found once. -/
theorem nodup_matchings (graph : Finset Statement) (triples : List Triple) :
  (matchings graph triples).Nodup
  := by
  rw [matchings]
  apply Multiset.Nodup.filter
  apply Multiset.Nodup.map assigning_injective
  apply Finset.nodup

open scoped Classical in
/-- No assignment is missed: the values of variables that occur in a triple are terms of the
graph. -/
theorem mem_matchings {graph : Finset Statement} {triples : List Triple} {μ : Solution} :
  μ ∈ matchings graph triples ↔ (∀ v, Binds μ v ↔ v ∈ (Pattern.basic triples).vars) ∧
    ∀ triple ∈ triples, ∃ statement ∈ graph, triple.InstanceOf μ statement
  := by
  rw [matchings, Multiset.mem_filter, Multiset.mem_map]
  apply and_congr_left
  intro hinstance
  constructor
  · rintro ⟨values, -, rfl⟩ v
    rw [binds_assigning, List.mem_toFinset]
  · intro hvars
    have hexact (v : Variable) : Binds μ v ↔ v ∈ (Pattern.basic triples).vars.toFinset := by
      rw [hvars, List.mem_toFinset]
    obtain ⟨values, heq, hvalues⟩ := exists_assigning hexact
    refine ⟨values, ?_, heq⟩
    apply Finset.mem_pi.mpr
    intro v hv
    obtain ⟨triple, htriple, hmem⟩ := List.mem_flatMap.mp (List.mem_toFinset.mp hv)
    obtain ⟨statement, hstatement, h⟩ := hinstance triple htriple
    apply h.mem_terms hstatement hmem (hvalues v hv)

/-- Matching a basic pattern as a whole is joining the solutions of its triples. -/
theorem matchings_eq (dataset : Dataset) (active : Finset Statement) (triples : List Triple) :
  matchings active triples = (Pattern.basic triples).solutions dataset active
  := by
  have h := Pattern.describes_basic dataset active triples
  apply (Multiset.Nodup.ext (nodup_matchings active triples) h.nodup).mpr
  intro μ
  rw [mem_matchings, h.mem_iff]

/-! ### Evaluation -/

/-- The solutions of a pattern in the active graph of a dataset, by the rules of the query
language. -/
noncomputable def Pattern.evaluate (dataset : Dataset) : Pattern → Finset Statement → Solutions
  | .basic triples, active => matchings active triples
  | .members list member, active => memberSolutions active list member
  | .join left right, active =>
    Solutions.join (evaluate dataset left active) (evaluate dataset right active)
  | .leftJoin left right, active =>
    optional (evaluate dataset left active) (evaluate dataset right active)
  | .graph (.iri name) inner, _ =>
    if name ∈ dataset.names then evaluate dataset inner (dataset.named name) else 0
  | .graph (.var v) inner, _ =>
    dataset.names.val.bind fun name =>
      Solutions.join (evaluate dataset inner (dataset.named name)) {single v (.iri name)}
  | .project inner selected, active =>
    (evaluate dataset inner active).map (·.restrict selected)

theorem Pattern.evaluate_eq (dataset : Dataset) (pattern : Pattern) (active : Finset Statement) :
  pattern.evaluate dataset active = pattern.solutions dataset active
  := by
  induction pattern generalizing active with
  | basic triples => apply matchings_eq
  | members list member => rfl
  | join left right ihl ihr => rw [evaluate, solutions, ihl, ihr]
  | leftJoin left right ihl ihr => rw [evaluate, solutions, ihl, ihr]
  | graph name inner ih =>
      cases name with
      | iri name => rw [evaluate, solutions, ih]
      | var v => simp only [evaluate, solutions, ih]
  | project inner selected ih =>
      rw [evaluate, solutions, ih]
      rfl

/-- Joining from the left is joining from the right. -/
theorem Solutions.foldl_join (first : Solutions) (parts : List Solutions) :
  parts.foldl join first = join first (joinList parts)
  := by
  induction parts generalizing first with
  | nil => simp
  | cons part parts ih => rw [List.foldl_cons, ih, joinList_cons, join_assoc]

/-! ### Conditions -/

/-- What a pattern asks of a graph: a triple, or a member of a list. -/
inductive Condition where
  | triple (triple : Triple)
  | member (list member : Term)
deriving DecidableEq, Repr

/-- The conditions of a pattern, from left to right. -/
def Pattern.conditions : Pattern → List Condition
  | .basic triples => triples.map .triple
  | .members list member => [.member list member]
  | .join left right => conditions left ++ conditions right
  | .leftJoin left right => conditions left ++ conditions right
  | .graph _ inner => conditions inner
  | .project inner _ => conditions inner

theorem Pattern.conditions_joinAll (parts : List Pattern) :
  (joinAll parts).conditions = parts.flatMap conditions
  := by
  apply collect_joinAll
  · intro triples
    apply List.map_eq_flatMap
  · intro left right
    rfl

/-- The conjunction of patterns has the joined solutions of its parts, from left to right and with
their multiplicities, and its conditions are those of the parts in their order. -/
theorem Pattern.joinAll_meaning (dataset : Dataset) (active : Finset Statement)
    (parts : List Pattern) :
  (joinAll parts).evaluate dataset active
      = (parts.map fun part => part.evaluate dataset active).foldl Solutions.join Solutions.unit ∧
    (joinAll parts).conditions = parts.flatMap conditions
  := by
  constructor
  · simp only [evaluate_eq]
    rw [solutions_joinAll, Solutions.foldl_join, unit_join]
  · apply conditions_joinAll

end LinkedQuery
