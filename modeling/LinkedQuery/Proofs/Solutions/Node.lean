import LinkedQuery.Proofs.Solutions.Surroundings
import LinkedQuery.Proofs.Variables.Scope

/-!
# Solutions of node objects

The solutions of a node object are the joins of what its entries require, extended by what they add
where there is any.  All of it is about the name of the node, so the name is settled: it has a
value in all solutions, or there is nothing but the solution without values.
-/

namespace LinkedQuery

open Solution Solutions

/-! ### The name of a node -/

theorem Pattern.binds_basic {dataset : Dataset} {active : Finset Statement}
    {triples : List Triple} {v : Variable} (h : v ∈ (Pattern.basic triples).vars) :
    ∀ μ ∈ (Pattern.basic triples).solutions dataset active, Binds μ v
  := by
  intro μ hμ
  have hdescribes := Pattern.describes_basic dataset active triples
  apply (((hdescribes.mem_iff μ).mp hμ).1 v).mpr h

theorem Pattern.settles_basic {dataset : Dataset} {active : Finset Statement}
    {triples : List Triple} {v : Variable} (h : ∀ triple ∈ triples, v ∈ triple.vars) :
  Settles ((Pattern.basic triples).solutions dataset active) v
  := by
  cases triples with
  | nil => apply settles_unit
  | cons first others =>
      right
      apply Pattern.binds_basic
      simp only [Pattern.vars, List.flatMap_cons, List.mem_append]
      exact .inl (h first List.mem_cons_self)

namespace NodeObject

section Settled

variable {dataset : Dataset} {active : Finset Statement} {scope : Scope} {v : Variable}

theorem Link.solutions_fragment (link : Link) (subject : Term) (item : Match) :
  (link.fragment subject item).solutions dataset active
    = Solutions.join
        ((Pattern.basic [propertyTriple subject link.iri link.reverse item.term]).solutions
          dataset active)
        (item.pattern.solutions dataset active)
  := by
  rw [Link.fragment, Pattern.solutions_joinAll]
  simp

/-- A fragment has a value for the name of its node. -/
theorem Link.binds_fragment {link : Link} {subject : Term} {item : Match}
    (h : v ∈ subject.vars) :
    ∀ μ ∈ (link.fragment subject item).solutions dataset active, Binds μ v
  := by
  rw [Link.solutions_fragment]
  apply binds_join
  apply Pattern.binds_basic
  simp [Pattern.vars, mem_vars_propertyTriple, h]

/-- The name of a node has a value wherever a class is found. -/
theorem binds_class (h : v ∈ scope.subject.vars) (class' : Term) :
    ∀ μ ∈ (Pattern.basic [classTriple scope.subject class']).solutions dataset active,
      Binds μ v
  := by
  apply Pattern.binds_basic
  simp [Pattern.vars, mem_vars_classTriple, h]

/-- Whether a share leaves a variable settled: what it requires does, and what it adds where there
is any has a value for it. -/
def Share.Settles (share : Share) (dataset : Dataset) (active : Finset Statement) (v : Variable) :
    Prop :=
  (∀ part ∈ share.required, Solutions.Settles (part.solutions dataset active) v)
    ∧ ∀ part ∈ share.optional, ∀ μ ∈ part.solutions dataset active, Binds μ v

theorem Share.settles_warn (key : String) (value : Json) (notice : Notice) :
  (Share.warn key value notice).Settles dataset active v
  := by
  constructor
  · simp [Share.warn]
  · simp [Share.warn]

theorem Share.settles_keep (value : Json) :
  (Share.keep value).Settles dataset active v
  := by
  constructor
  · simp [Share.keep]
  · simp [Share.keep]

/-- The classes of a node leave its name settled. -/
theorem settles_typeShare (child : Variable) (key : String) (value : Json)
    (h : v ∈ scope.subject.vars) :
  (typeShare scope child key value).Settles dataset active v
  := by
  have hclasses := typeShare_classes scope child key value
  generalize typeShare scope child key value = share at hclasses
  cases hclasses with
  | asked =>
      constructor
      · simp only [List.forall_mem_singleton]
        exact .inr (binds_class h _)
      · simp
  | askedAll =>
      constructor
      · simp
      · simp only [List.forall_mem_singleton]
        apply binds_class h
  | given value classes =>
      constructor
      · simp only [List.forall_mem_singleton]
        apply Pattern.settles_basic
        intro triple htriple
        obtain ⟨iri, -, rfl⟩ := List.mem_map.mp htriple
        apply mem_vars_classTriple.mpr (.inl h)
      · simp
  | unusable value => apply Share.settles_warn

/-- The share of a branch leaves the name of the node settled. -/
theorem Branch.settles (branch : Branch) (h : v ∈ scope.subject.vars) :
  (branch.share scope).Settles dataset active v
  := by
  cases branch with
  | plain row =>
      obtain ⟨role, key, value⟩ := row
      cases role with
      | context => apply Share.settles_keep
      | id =>
          simp only [Branch.share, Row.plainShare, idShare]
          split
          · constructor
            · simp
            · simp
          · apply Share.settles_warn
          · apply Share.settles_keep
      | type child => apply settles_typeShare child key value h
      | property iri reverse child =>
          simp only [Branch.share, Row.plainShare]
          split
          · apply Share.settles_warn
          · apply Share.settles_warn
      | _ => apply Share.settles_warn
  | linked row link inner item log =>
      simp only [Share.Settles, Branch.share, Link.share]
      constructor
      · split
        · simp
        · rw [List.forall_mem_singleton]
          exact .inr (Link.binds_fragment h)
      · split
        · simp
        · rw [List.forall_mem_singleton]
          apply Link.binds_fragment h

/-- The solutions of a node object: those of what the branches require, joined, and then those of
what they add where there is any. -/
theorem solutions_matchOf {context : Context} {target : Variable}
    {entries : List (String × Json)} (branches : List Branch) :
  let scope := scopeOf context target entries
  (matchOf context target entries branches).pattern.solutions dataset active
    = ((branches.flatMap fun branch => (branch.share scope).optional).map fun part =>
        part.solutions dataset active).foldl Solutions.optional
          (joinList ((branches.flatMap fun branch => (branch.share scope).required).map fun part =>
            part.solutions dataset active))
  := by
  simp only [matchOf, assemble, List.flatMap_map, Pattern.solutions_foldl_leftJoin,
    Pattern.solutions_joinAll]

/-- The name of a node object is settled. -/
theorem settles_matchOf {context : Context} {target : Variable} {entries : List (String × Json)}
    (branches : List Branch) (h : v ∈ (scopeOf context target entries).subject.vars) :
  Settles ((matchOf context target entries branches).pattern.solutions dataset active) v
  := by
  rw [solutions_matchOf]
  apply Settles.foldl_optional
  · apply settles_joinList
    rw [List.forall_mem_map]
    intro pattern hpattern
    obtain ⟨branch, -, hpattern⟩ := List.mem_flatMap.mp hpattern
    apply (branch.settles h).1 pattern hpattern
  · rw [List.forall_mem_map]
    intro pattern hpattern
    obtain ⟨branch, -, hpattern⟩ := List.mem_flatMap.mp hpattern
    apply (branch.settles h).2 pattern hpattern

end Settled

/-! ### Optional and required values -/

section Values

variable {context : Context} {target : Variable} {entries entries' : List (String × Json)}
  {row : Row} {link : Link} {inner : Context}

/-- The pattern of a node object that ends with an optional entry. -/
theorem pattern_matchOf_last (branches : List Branch) (item : Match) (log : Log)
    (identity : scopeOf context target entries' = scopeOf context target entries)
    (present : inner.shape row.value ≠ .null)
    (optional : isOptional link.definition (inner.shape row.value) = true) :
  (matchOf context target entries (branches ++ [.linked row link inner item log])).pattern
    = .leftJoin (matchOf context target entries' branches).pattern
        (link.fragment (scopeOf context target entries).subject item)
  := by
  simp [matchOf, assemble, Branch.share, Link.share, identity, present, optional]

/-- The fragment of an object is required when the term declares no container. -/
theorem Link.share_object (plain : link.definition.containers = []) (subject : Term) (key : String)
    (inner : Context) (entries : List (String × Json)) (item : Match) :
  let share := link.share subject key (inner.shape (.object entries)) item
  share.required = [link.fragment subject item] ∧ share.optional = []
  := by
  obtain ⟨hnull, harray⟩ := inner.shape_object_ne entries
  simp [Link.share, isOptional, Definition.has, plain, hnull, harray]

/-- The solutions of an object under a term without a container are surrounded by those of the node
object around it. -/
theorem around_matchOf {branches others : List Branch} {item item' : Match} {log log' : Log}
    {object object' : List (String × Json)}
    (identity : scopeOf context target entries' = scopeOf context target entries)
    (held : row.value = .object object) (plain : link.definition.containers = [])
    (term_eq : item'.term = item.term) (dataset : Dataset) (active : Finset Statement) :
  Around (item.pattern.solutions dataset active) (item'.pattern.solutions dataset active)
    ((matchOf context target entries
      (branches ++ .linked row link inner item log :: others)).pattern.solutions dataset active)
    ((matchOf context target entries'
      (branches ++ .linked { row with value := .object object' } link inner item' log' :: others)
        ).pattern.solutions dataset active)
  := by
  rw [solutions_matchOf, solutions_matchOf]
  simp only [identity, held, List.flatMap_append, List.flatMap_cons, Branch.share,
    Link.share_object plain, List.nil_append, List.singleton_append, List.map_append,
    List.map_cons, Link.solutions_fragment, term_eq]
  apply Around.foldl_optional
  apply Around.joinList
  apply Around.here.join

end Values

end NodeObject

end LinkedQuery
