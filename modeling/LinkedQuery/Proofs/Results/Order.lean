import LinkedQuery.Proofs.Reading.Log
import LinkedQuery.Proofs.Reading.Order
import LinkedQuery.Proofs.Solutions.Node
import LinkedQuery.Proofs.Solutions.Order

/-!
# The order of entries

The entries of a node object can be put in another order: `entries_reordered` says that the body of
the query and the query itself keep their solutions over every dataset.  The required parts of a
node are joined, and the optional ones share only the name of the node, which has a value by then.
-/

namespace LinkedQuery

open Solution Solutions

/-! ### Equivalent matches -/

/-- Whether two matches have the same term and the same solutions and select the same variables. -/
structure Equivalent (found found' : Match) : Prop where
  term_eq : found'.term = found.term
  solutions_eq : ∀ dataset active,
    found'.pattern.solutions dataset active = found.pattern.solutions dataset active
  selected : ∀ v, v ∈ found'.projections ↔ v ∈ found.projections

section Equivalent

variable {setup : Setup} {item item' : Match}

/-- Patterns with the same solutions have the same solutions in a graph. -/
theorem Pattern.solutions_graph {dataset : Dataset} {pattern pattern' : Pattern}
    (h : ∀ active, pattern'.solutions dataset active = pattern.solutions dataset active)
    (name : Name) (active : Finset Statement) :
  (Pattern.graph name pattern').solutions dataset active
    = (Pattern.graph name pattern).solutions dataset active
  := by
  cases name with
  | iri value => simp only [Pattern.solutions, h]
  | var v => simp only [Pattern.solutions, h]

/-- A list is equivalent when its first member is. -/
theorem Equivalent.members (equivalent : Equivalent item item') (target member : Variable)
    (several : Bool) :
  Equivalent (ListObject.membersMatch target member several item)
    (ListObject.membersMatch target member several item')
  := by
  constructor
  · rfl
  · intro dataset active
    simp only [ListObject.membersMatch, Pattern.solutions_joinAll, List.map_cons, List.map_nil,
      equivalent.term_eq, equivalent.solutions_eq]
  · intro v
    cases several with
    | false => apply equivalent.selected
    | true =>
        simp only [ListObject.membersMatch, if_true, mem_itemProjections, equivalent.term_eq,
          equivalent.selected]

/-- What leads to equivalent matches is equivalent. -/
theorem Equivalent.lead {outer inner : Visit} {make : Match → Match}
    (step : Leads setup outer inner make) (equivalent : Equivalent item item') :
  Equivalent (make item) (make item')
  := by
  cases step with
  | document | documentGraph | documents | nodeObjects | entryValue | graphNodes | graphNode =>
      exact equivalent
  | items =>
      refine ⟨equivalent.term_eq, equivalent.solutions_eq, ?_⟩
      intro v
      simp only [itemsMatch, mem_itemProjections, equivalent.term_eq, equivalent.selected]
  | topLevelGraph | listObject =>
      exact ⟨equivalent.term_eq, equivalent.solutions_eq, equivalent.selected⟩
  | members | onlyMember => apply equivalent.members
  | graphObject =>
      refine ⟨rfl, ?_, ?_⟩
      · intro dataset active
        apply Pattern.solutions_graph (equivalent.solutions_eq dataset)
      · intro v
        simp only [GraphObject.matchOf, List.mem_append, equivalent.selected]
  | graphValue =>
      refine ⟨rfl, ?_, equivalent.selected⟩
      intro dataset active
      apply Pattern.solutions_graph (equivalent.solutions_eq dataset)

end Equivalent

namespace NodeObject

variable {setup : Setup} {entries entries' : List (String × Json)} {frame : Frame}
  {context : Context} {branches branches' : List Branch} {scope : Scope}

/-- A link adds the same solutions for equivalent matches of its value. -/
theorem Link.map_solutions_share (link : Link) (subject : Term) {item item' : Match}
    (equivalent : Equivalent item item') (key : String) (shape : Shape) (dataset : Dataset)
    (active : Finset Statement) :
  let share := link.share subject key shape item
  let share' := link.share subject key shape item'
  share'.required.map (·.solutions dataset active) = share.required.map (·.solutions dataset active)
    ∧ share'.optional.map (·.solutions dataset active)
      = share.optional.map (·.solutions dataset active)
  := by
  have hfragment : (link.fragment subject item').solutions dataset active
      = (link.fragment subject item).solutions dataset active := by
    rw [solutions_fragment, solutions_fragment, equivalent.term_eq, equivalent.solutions_eq]
  constructor
  · simp only [share]
    split
    · rfl
    · rw [List.map_singleton, List.map_singleton, hfragment]
  · simp only [share]
    split
    · rfl
    · rw [List.map_singleton, List.map_singleton, hfragment]

/-- A node object is equivalent when the value of an entry is. -/
theorem equivalent_matchOf {target : Variable} {earlier later : List Branch} {row : Row}
    {link : Link} {inner : Context} {item item' : Match} {log log' : Log}
    (equivalent : Equivalent item item') :
  Equivalent (matchOf context target entries (earlier ++ .linked row link inner item log :: later))
    (matchOf context target entries (earlier ++ .linked row link inner item' log' :: later))
  := by
  constructor
  · rfl
  · intro dataset active
    obtain ⟨hrequired, hoptional⟩ := link.map_solutions_share
      (scopeOf context target entries).subject equivalent row.key (inner.shape row.value) dataset
      active
    simp only [solutions_matchOf, List.flatMap_append, List.flatMap_cons, List.map_append,
      Branch.share, hrequired, hoptional]
  · intro v
    simp only [matchOf, assemble, List.map_append, List.map_cons, List.flatMap_append,
      List.flatMap_cons, List.mem_append, Branch.share, Link.share, equivalent.selected]

/-! ### Branches in another order -/

/-- Whether the name of a node is a constant or is in what an entry of the node requires. -/
def Anchored (setup : Setup) (entries : List (String × Json)) (frame : Frame)
    (context : Context) : Prop :=
  let scope := scopeOf context frame.target entries
  ∃ found, shares setup scope (roles setup.naming context frame.target false {}
      (entries.map Prod.fst)) (entries.map fun entry => (entry.1, setup.grammar.element entry.2))
        = .ok found ∧
    ∀ v ∈ scope.subject.vars, ∃ entry ∈ found, ∃ part ∈ entry.2.required, v ∈ part.vars

theorem Anchored.exists_branches (anchored : Anchored setup entries frame context)
    (entered : setup.enter frame.context (entries.lookup Keyword.context.text) = .ok context) :
  let scope := scopeOf context frame.target entries
  ∃ branches, Reads setup entries frame context branches ∧ Visited setup branches ∧
    ∀ v ∈ scope.subject.vars, ∃ branch ∈ branches,
      ∃ part ∈ (branch.share scope).required, v ∈ part.vars
  := by
  obtain ⟨found, hfound, hanchored⟩ := anchored
  rw [← map_role_rows, ← map_element_rows setup context frame.target] at hfound
  obtain ⟨branches, hrows, rfl, fits, visited⟩ :=
    NodeObject.exists_branches setup (P := Derives setup)
      (fun _ _ _ _ item hitem => exists_derives _ item hitem) hfound
  use branches, ⟨entered, hrows, fits⟩, visited
  intro v hv
  obtain ⟨entry, hentry, hpart⟩ := hanchored v hv
  obtain ⟨branch, hbranch, rfl⟩ := List.mem_map.mp hentry
  exact ⟨branch, hbranch, hpart⟩

/-- What an entry requires has a value for the name of the node if it has the name. -/
theorem Branch.binds_required {branch : Branch} {part : Pattern} {v : Variable}
    (hpart : part ∈ (branch.share scope).required) (name : v ∈ scope.subject.vars)
    (h : v ∈ part.vars) {dataset : Dataset} {active : Finset Statement} :
    ∀ μ ∈ part.solutions dataset active, Binds μ v
  := by
  cases branch with
  | plain row =>
      obtain ⟨role, key, value⟩ := row
      suffices hbasic : ∃ triples, part = .basic triples by
        obtain ⟨triples, rfl⟩ := hbasic
        apply Pattern.binds_basic h
      simp only [Branch.share] at hpart
      cases role with
      | id =>
          simp only [Row.plainShare, idShare] at hpart
          split at hpart
          all_goals simp [Share.warn, Share.keep] at hpart
      | type child =>
          simp only [Row.plainShare] at hpart
          have hclasses := typeShare_classes scope child key value
          generalize typeShare scope child key value = share at hclasses hpart
          cases hclasses with
          | asked | given => exact ⟨_, List.mem_singleton.mp hpart⟩
          | askedAll | unusable => simp [Share.warn] at hpart
      | property iri reverse child =>
          simp only [Row.plainShare] at hpart
          split at hpart
          all_goals simp [Share.warn] at hpart
      | _ => simp [Row.plainShare, Share.keep, Share.warn] at hpart
  | linked row link inner item log =>
      simp only [Branch.share, Link.share] at hpart
      split at hpart
      · cases hpart
      · rw [List.mem_singleton.mp hpart]
        apply Link.binds_fragment name

/-- An entry has at most one optional part, whose variables are those of the name of the node and
those that the entry introduces. -/
theorem Branch.optional_cases (branch : Branch) (scope : Scope) :
  (branch.share scope).optional = [] ∨
    ∃ part, (branch.share scope).optional = [part] ∧
      ∀ v ∈ part.vars, v ∈ scope.subject.vars ∨ v ∈ branch.introduced
  := by
  cases branch with
  | plain row =>
      obtain ⟨role, key, value⟩ := row
      cases role with
      | id =>
          left
          simp only [Branch.share, Row.plainShare, idShare]
          split
          all_goals rfl
      | type child =>
          simp only [Branch.share, Row.plainShare, introduced]
          have hclasses := typeShare_classes scope child key value
          generalize typeShare scope child key value = share at hclasses
          cases hclasses with
          | askedAll =>
              right
              refine ⟨_, rfl, ?_⟩
              simp [Pattern.vars, mem_vars_classTriple]
          | _ => exact .inl rfl
      | property iri reverse child =>
          left
          simp only [Branch.share, Row.plainShare]
          split
          all_goals rfl
      | _ => exact .inl rfl
  | linked row link inner item log =>
      simp only [Branch.share, Link.share, introduced]
      split
      · exact .inl rfl
      · right
        refine ⟨_, rfl, ?_⟩
        intro v hv
        apply Link.mem_vars_fragment hv

/-- The optional parts of a node object share only the name of the node. -/
theorem Separate.pairwise_optional (separate : Separate scope branches) (dataset : Dataset)
    (active : Finset Statement) :
  ((branches.flatMap fun branch => (branch.share scope).optional).map fun part =>
    part.solutions dataset active).Pairwise (SharesOnly scope.subject.vars)
  := by
  rw [List.pairwise_map, List.pairwise_flatMap]
  constructor
  · intro branch _
    rcases branch.optional_cases scope with heq | ⟨part, heq, -⟩
    · simp [heq]
    · simp [heq]
  · apply separate.apart.imp
    intro first second hapart part hpart part' hpart' μ hμ ν hν v hv hv'
    have hvars (branch : Branch) {part : Pattern} (hpart : part ∈ (branch.share scope).optional)
        (hv : v ∈ part.vars) : v ∈ scope.subject.vars ∨ v ∈ branch.introduced := by
      rcases branch.optional_cases scope with heq | ⟨other, heq, hother⟩
      · simp [heq] at hpart
      · rw [heq, List.mem_singleton] at hpart
        exact hother v (hpart ▸ hv)
    rcases hvars first hpart (Pattern.mem_vars_of_binds hμ hv) with hfirst | hfirst
    · exact hfirst
    · rcases hvars second hpart' (Pattern.mem_vars_of_binds hν hv') with hsecond | hsecond
      · exact hsecond
      · exact absurd hsecond (hapart v hfirst)

/-- Branches in another order make an equivalent match, if the name of the node has a value in what
they require. -/
theorem Separate.equivalent_perm {target : Variable}
    (separate : Separate (scopeOf context target entries) branches)
    (anchored : ∀ v ∈ (scopeOf context target entries).subject.vars, ∃ branch ∈ branches,
      ∃ part ∈ (branch.share (scopeOf context target entries)).required, v ∈ part.vars)
    (same : scopeOf context target entries' = scopeOf context target entries)
    (h : branches'.Perm branches) :
  Equivalent (matchOf context target entries branches) (matchOf context target entries' branches')
  := by
  constructor
  · exact congrArg Scope.subject same
  · intro dataset active
    rw [solutions_matchOf, solutions_matchOf, same,
      joinList_perm ((h.flatMap_right _).map _)]
    symm
    apply foldl_optional_perm _ (separate.pairwise_optional dataset active)
      ((h.symm.flatMap_right _).map _)
    intro μ hμ v hv
    obtain ⟨branch, hbranch, part, hpart, hmem⟩ := anchored v hv
    have hrequired : part.solutions dataset active
        ∈ (branches.flatMap fun branch =>
            (branch.share (scopeOf context target entries)).required).map fun part =>
              part.solutions dataset active := by
      apply List.mem_map_of_mem
      exact List.mem_flatMap.mpr ⟨branch, hbranch, hpart⟩
    apply binds_joinList hrequired (Branch.binds_required hpart hv hmem) μ hμ
  · intro v
    simp only [matchOf, assemble, List.flatMap_map, same]
    apply (h.flatMap_right _).mem_iff

end NodeObject

/-! ### Queries -/

/-- Equivalent matches are carried to what is around a place. -/
theorem carries_equivalent (setup : Setup) (last : Visit) :
  Carries setup last fun _ => Equivalent
  := by
  constructor
  · intro outer inner make path item item' step _ _ _ equivalent
    apply equivalent.lead step
  · intro entries frame context earlier later row link inner path item item' log _ _ _ _ equivalent
    apply NodeObject.equivalent_matchOf equivalent

section Equivalent

variable {found found' : Match}

/-- Equivalent matches make queries whose bodies have the same solutions. -/
theorem Equivalent.body_over (equivalent : Equivalent found found') (dataset : Dataset) :
  found'.query.body.over dataset = found.query.body.over dataset
  := by
  apply equivalent.solutions_eq

/-- Equivalent matches make queries with the same solutions: the bodies have the same ones, and the
same variables are selected from them. -/
theorem Equivalent.pattern_over (equivalent : Equivalent found found') (dataset : Dataset) :
  found'.query.pattern.over dataset = found.query.pattern.over dataset
  := by
  simp only [Match.query, Pattern.over, Pattern.solutions, distinct, List.mem_eraseDups,
    equivalent.selected, equivalent.solutions_eq]

end Equivalent

/-- When the entries of a node object are put in another order, the query keeps its solutions over
every dataset, before they are cut down to the selected variables and after.  At most one entry
names the node, no two claim the same segment, and the name of the node is a constant or is in what
an entry requires. -/
theorem entries_reordered (setup : Setup) (document : Json) (query : Query) (path : List Step)
    (entries entries' : List (String × Json)) (frame : Frame) (context : Context)
    (distinct : document.hasDistinctKeys = true) (h : setup.grammar.query document = .ok query)
    (comes : Comes setup (setup.documentVisit document) path
      ⟨.production .nodeObject, .object entries, frame⟩)
    (entered : setup.enter frame.context (entries.lookup Keyword.context.text) = .ok context)
    (names : NodeObject.countNames context (entries.map Prod.fst) ≤ 1)
    (segments : ((entries.map Prod.fst).filterMap (NodeObject.segment? context)).Nodup)
    (anchored : NodeObject.Anchored setup entries frame context)
    (reordered : entries'.Perm entries) :
  ∃ query', setup.grammar.query (document.put path (.object entries')) = .ok query' ∧
    ∀ dataset, query'.body.over dataset = query.body.over dataset ∧
      query'.pattern.over dataset = query.pattern.over dataset
  := by
  obtain ⟨found, log, derived, rfl⟩ := query_eq_ok.mp h
  obtain ⟨branches, reads, visited, hanchored⟩ := anchored.exists_branches entered
  have hkeys := (Json.hasDistinctKeys_object.mp (comes.hasDistinctKeys distinct)).1
  obtain ⟨branches', hperm, reads'⟩ := reads.perm hkeys names segments reordered
  have hequivalent := (reads.separate visited).equivalent_perm hanchored
    (NodeObject.scopeOf_perm names reordered frame.target) hperm
  have hrun := reads.run fun row link inner item log hbranch =>
    (visited row link inner item log hbranch).run
  have hrun' := reads'.run fun row link inner item log hbranch =>
    (visited row link inner item log (hperm.mem_iff.mp hbranch)).run
  have hknown {item : Match}
      (hitem : setup.run ⟨.production .nodeObject, .object entries, frame⟩ = .ok item) :
      ∃ item', setup.run ⟨.production .nodeObject, .object entries', frame⟩ = .ok item' ∧
        Equivalent item item' := by
    rw [hrun, Except.ok.injEq] at hitem
    subst hitem
    exact ⟨_, hrun', hequivalent⟩
  have hmoved : Alike setup {} document (document.put path (.object entries')) ∧
      ∃ found', setup.run (setup.documentVisit (document.put path (.object entries')))
        = .ok found' ∧ Equivalent found found' := by
    apply comes.transfer (carries_equivalent setup _) distinct (.of_perm hkeys reordered) hknown _
      derived.run
    apply Setup.ReadsAlike.of_shape
    intro context
    apply Context.objectShape_perm (reordered.map _)
  obtain ⟨-, found', hfound', hequal⟩ := hmoved
  obtain ⟨log', derived'⟩ := exists_derives _ _ hfound'
  use found'.query, query_eq_ok.mpr ⟨found', log', derived', rfl⟩
  intro dataset
  exact ⟨hequal.body_over dataset, hequal.pattern_over dataset⟩

/-- The entries of a document that asks for a film with all its actors and awards. -/
def filmEntries : List (String × Json) :=
  [("ex:actor", .array [.string "?"]), ("ex:award", .array [.string "?"]),
    ("ex:title", .string "?")]

/-- The film with its title first. -/
theorem entries_reordered_title :
  ∃ query query', ({} : Setup).grammar.query (.object filmEntries) = .ok query ∧
    ({} : Setup).grammar.query (.object filmEntries.reverse) = .ok query' ∧
    ∀ dataset, query'.body.over dataset = query.body.over dataset ∧
      query'.pattern.over dataset = query.pattern.over dataset
  := by
  let frame : Frame := ⟨({} : Setup).naming.rootVariable, {}, none⟩
  let scope := NodeObject.scopeOf {} frame.target filmEntries
  have houtcome : (({} : Setup).grammar.query (.object filmEntries)).toOption.map (fun _ => ())
      = some () := by decide +kernel
  obtain ⟨query, h, -⟩ := exists_of_outcome _ _ houtcome
  have hshares : (NodeObject.shares {} scope (NodeObject.roles ({} : Setup).naming {} frame.target
      false {} (filmEntries.map Prod.fst)) (filmEntries.map fun entry =>
        (entry.1, ({} : Setup).grammar.element entry.2))).toOption.map (fun found =>
          scope.subject.vars.all fun v => found.any fun entry =>
            entry.2.required.any fun part => v ∈ part.vars) = some true := by decide +kernel
  obtain ⟨found, hfound, hall⟩ := exists_of_outcome _ _ hshares
  have anchored : NodeObject.Anchored {} filmEntries frame {} := by
    refine ⟨found, hfound, ?_⟩
    simpa using hall
  obtain ⟨query', h', hsame⟩ := entries_reordered {} (.object filmEntries) query [] filmEntries
    filmEntries.reverse frame {} (by decide) h (.lead (.document rfl rfl) .here) rfl (by decide)
    (by decide) anchored (List.reverse_perm _)
  exact ⟨query, query', h, h', hsame⟩

end LinkedQuery
