import LinkedQuery.Proofs.Reading.Place
import Mathlib.Data.List.Nodup

/-!
# Variables are unique

In the query of a document with distinct keys no two places of the template have one variable, and
the entries of each node object introduce variables that are apart from each other and from the
variable of the node.
-/

namespace LinkedQuery

variable {setup : Setup}

/-! ### Placeholders of objects -/

namespace Template

mutual

/-- The variables of placeholders are variables of the template. -/
theorem placeholders_subset : ∀ (template : Template) (v : Variable),
    v ∈ template.placeholders → v ∈ template.vars
  | .object entries, v, h => entryPlaceholders_subset entries v h
  | .array _ item, v, h => List.mem_cons_of_mem _ (placeholders_subset item v h)
  | .name _, _, h => h
  | .native _, _, h => h
  | .value _, _, h => h

theorem entryPlaceholders_subset : ∀ (entries : List (String × Template)) (v : Variable),
    v ∈ entryPlaceholders entries → v ∈ entryVars entries
  | [], _, h => h
  | (_, template) :: entries, v, h => by
      rw [entryPlaceholders, List.mem_append] at h
      rw [entryVars, List.mem_append]
      rcases h with h | h
      · exact .inl (placeholders_subset template v h)
      · exact .inr (entryPlaceholders_subset entries v h)

end

/-- The placeholders of an object around a template are those of the template, if its keys are
distinct. -/
theorem nodup_placeholders_around {entries : List (String × Json)} {key : String}
    {template : Template} (distinct : (entries.map Prod.fst).Nodup)
    (h : template.placeholders.Nodup) :
  (around entries key template).placeholders.Nodup
  := by
  rw [around, placeholders_object, List.flatMap_map, List.nodup_flatMap]
  constructor
  · intro entry _
    split
    · apply h
    · apply List.nodup_nil
  · apply (List.pairwise_map.mp distinct).imp
    intro entry entry' hne v hv hv'
    simp only at hv hv'
    split at hv
    · split at hv'
      · simp_all
      · cases hv'
    · cases hv

end Template

/-! ### Members of graphs -/

/-- The placeholders of an entry of a graph object are those of the members or that of the name,
each at its own key. -/
theorem GraphObject.mem_placeholders_shareOf {context : Context} {target : Variable}
    {entries : List (String × Json)} {graphKey : String} {members : Match} {key : String}
    {value : Json} {v : Variable}
    (h : v ∈ (shareOf context target entries graphKey members key value).template.placeholders) :
  (key = graphKey ∧ v ∈ members.template.placeholders)
    ∨ ((context.entryFor? entries .id).any (·.1 == key) = true ∧ v = target)
  := by
  simp only [shareOf] at h
  split at h
  · exact .inl ⟨‹_›, h⟩
  · split at h
    · simp only [idShare] at h
      split at h
      · exact .inr ⟨‹_›, by simpa [Template.placeholders] using h⟩
      · cases h
      · cases h
    · simp only [otherShare] at h
      split at h
      · cases h
      · cases h
      · cases h

/-- The share of an entry of a graph object has each placeholder once. -/
theorem GraphObject.nodup_placeholders_shareOf {context : Context} {target : Variable}
    {entries : List (String × Json)} {graphKey : String} {members : Match}
    (h : members.template.placeholders.Nodup) (key : String) (value : Json) :
  (shareOf context target entries graphKey members key value).template.placeholders.Nodup
  := by
  simp only [shareOf]
  split
  · apply h
  · split
    · simp only [idShare]
      split
      · apply List.nodup_singleton
      · apply List.nodup_nil
      · apply List.nodup_nil
    · simp only [otherShare]
      split
      · apply List.nodup_nil
      · apply List.nodup_nil
      · apply List.nodup_nil

/-- A graph object has each placeholder once, if its keys are distinct and the members leave its
variable alone. -/
theorem GraphObject.nodup_placeholders_matchOf {context : Context} {target : Variable}
    {entries : List (String × Json)} {graphKey : String} {members : Match}
    (distinct : (entries.map Prod.fst).Nodup) (h : members.template.placeholders.Nodup)
    (free : target ∉ members.template.placeholders) :
  (matchOf context target entries graphKey members).template.placeholders.Nodup
  := by
  simp only [matchOf, Template.placeholders_object, List.flatMap_map, List.nodup_flatMap]
  constructor
  · intro entry _
    apply nodup_placeholders_shareOf h
  · apply (List.pairwise_map.mp distinct).imp
    intro entry entry' hne v hv hv'
    rcases mem_placeholders_shareOf hv with ⟨hkey, hmembers⟩ | ⟨hkey, rfl⟩
    · rcases mem_placeholders_shareOf hv' with ⟨hkey', -⟩ | ⟨-, rfl⟩
      · exact hne (hkey.trans hkey'.symm)
      · exact free hmembers
    · rcases mem_placeholders_shareOf hv' with ⟨-, hmembers⟩ | ⟨hkey', -⟩
      · exact free hmembers
      · rw [Option.any_eq_true] at hkey hkey'
        obtain ⟨found, hfound, hkey⟩ := hkey
        obtain ⟨found', hfound', hkey'⟩ := hkey'
        rw [hfound, Option.some.injEq] at hfound'
        subst hfound'
        simp only [beq_iff_eq] at hkey hkey'
        exact hne (hkey.symm.trans hkey')

/-! ### Visits -/

/-- A visit that ends has at most one placeholder. -/
theorem Ends.nodup_placeholders {visit : Visit} {found : Match} (last : Ends setup visit found)
    (distinct : visit.value.hasDistinctKeys = true) :
  found.template.placeholders.Nodup
  := by
  cases last with
  | placeholder => apply List.nodup_singleton
  | valueObject entered held =>
      have hkeys := (Json.hasDistinctKeys_object.mp distinct).1
      simp only [ValueObject.matchOf]
      split
      · apply Template.nodup_placeholders_around hkeys
        apply List.nodup_singleton
      · apply Template.nodup_placeholders_around hkeys
        apply List.nodup_nil
  | _ => apply List.nodup_nil

/-- A visit that leads to another has each placeholder once if the other has. -/
theorem Leads.nodup_placeholders {outer inner : Visit} {make : Match → Match} {found : Match}
    {log : Log} (step : Leads setup outer inner make) (read : Derives setup inner found log)
    (distinct : outer.value.hasDistinctKeys = true) (h : found.template.placeholders.Nodup) :
  (make found).template.placeholders.Nodup
  := by
  cases step with
  | topLevelGraph entered held | listObject entered held =>
      apply Template.nodup_placeholders_around (Json.hasDistinctKeys_object.mp distinct).1 h
  | graphObject entered held =>
      apply GraphObject.nodup_placeholders_matchOf (Json.hasDistinctKeys_object.mp distinct).1 h
      intro hmem
      apply Naming.Below.not_child _ _ (read.within_graphMembers _ (Match.mem_vars.mpr _))
      exact .inr (.inl (Template.placeholders_subset _ _ hmem))
  | _ => apply h

namespace NodeObject

/-- A row without a link has at most one placeholder, for the name of the node or its classes. -/
theorem Row.placeholders_plainShare (scope : Scope) (row : Row) :
  let found := (row.plainShare scope).template.placeholders
  found = [] ∨ (row.role = .id ∧ found = [scope.target])
    ∨ ∃ child, row.role = .type child ∧ found = [child]
  := by
  obtain ⟨role, key, value⟩ := row
  cases role with
  | id =>
      simp only [Row.plainShare, idShare]
      split
      · exact .inr (.inl ⟨trivial, rfl⟩)
      · exact .inl rfl
      · exact .inl rfl
  | type child =>
      simp only [Row.plainShare]
      have hclasses := typeShare_classes scope child key value
      generalize typeShare scope child key value = share at hclasses
      cases hclasses with
      | asked | askedAll => exact .inr (.inr ⟨child, rfl, rfl⟩)
      | _ => exact .inl rfl
  | property iri reverse child =>
      simp only [Row.plainShare]
      split
      · exact .inl rfl
      · exact .inl rfl
  | _ => exact .inl rfl

/-- The placeholders of a branch are the variable of the node, where the row names it, or are
introduced by the branch. -/
theorem Branch.mem_placeholders {scope : Scope} {branch : Branch} {v : Variable}
    (h : v ∈ (branch.share scope).template.placeholders) :
  (branch.row.role = .id ∧ v = scope.target) ∨ v ∈ branch.introduced
  := by
  cases branch with
  | plain row =>
      rcases row.placeholders_plainShare scope with heq | ⟨hrole, heq⟩ | ⟨child, hrole, heq⟩
      · rw [Branch.share, heq] at h
        cases h
      · rw [Branch.share, heq, List.mem_singleton] at h
        exact .inl ⟨hrole, h⟩
      · rw [Branch.share, heq] at h
        right
        rw [introduced, hrole]
        apply h
  | linked row link inner item log =>
      right
      apply Match.mem_vars.mpr (.inr (.inl (Template.placeholders_subset _ _ h)))

/-- The share of a branch has each placeholder once if the match of its value has. -/
theorem Branch.nodup_placeholders {scope : Scope} {branch : Branch}
    (h : ∀ row link inner item log, branch = .linked row link inner item log →
      item.template.placeholders.Nodup) :
  (branch.share scope).template.placeholders.Nodup
  := by
  cases branch with
  | plain row =>
      rw [Branch.share]
      rcases row.placeholders_plainShare scope with heq | ⟨-, heq⟩ | ⟨child, -, heq⟩
      · rw [heq]
        apply List.nodup_nil
      · rw [heq]
        apply List.nodup_singleton
      · rw [heq]
        apply List.nodup_singleton
  | linked row link inner item log => apply h row link inner item log rfl

section Reads

variable {entries : List (String × Json)} {frame : Frame} {context : Context}
  {branches : List Branch}

/-- A node object has each placeholder once if the matches of the values have. -/
theorem Reads.nodup_placeholders (reads : Reads setup entries frame context branches)
    (visited : Visited setup branches)
    (h : ∀ row link inner item log, Branch.linked row link inner item log ∈ branches →
      item.template.placeholders.Nodup) :
  (matchOf context frame.target entries branches).template.placeholders.Nodup
  := by
  have hseparate := reads.separate visited
  simp only [matchOf, assemble, Template.placeholders_object, List.flatMap_map,
    List.nodup_flatMap]
  constructor
  · intro branch hbranch
    apply Branch.nodup_placeholders
    intro row link inner item log heq
    apply h row link inner item log (heq ▸ hbranch)
  · apply (hseparate.apart.and reads.pairwise_apart).imp_of_mem
    intro first second hfirst hsecond hpair v hv hv'
    obtain ⟨hapart, hroles⟩ := hpair
    rcases Branch.mem_placeholders hv with ⟨hid, rfl⟩ | hv
    · rcases Branch.mem_placeholders hv' with ⟨hid', -⟩ | hv'
      · exact hroles.1 hid hid'
      · exact hseparate.own second hsecond hv'
    · rcases Branch.mem_placeholders hv' with ⟨-, rfl⟩ | hv'
      · exact hseparate.own first hfirst hv
      · exact hapart v hv hv'

end Reads

end NodeObject

/-- The template of a value with distinct keys has each placeholder once. -/
theorem Derives.nodup_placeholders {visit : Visit} {found : Match} {log : Log}
    (derived : Derives setup visit found log) (distinct : visit.value.hasDistinctKeys = true) :
  found.template.placeholders.Nodup
  := by
  induction derived with
  | ends last => apply last.nodup_placeholders distinct
  | leads step read ih =>
      apply step.nodup_placeholders read distinct (ih (step.hasDistinctKeys distinct))
  | node reads read ih =>
      apply reads.nodup_placeholders read
      intro row link inner item log hbranch
      apply ih row link inner item log hbranch (reads.hasDistinctKeys distinct hbranch)

/-! ### Queries -/

/-- In the query of a document with distinct keys the template has each placeholder variable once,
and wherever the reading meets a node object, its entries introduce separate variables. -/
theorem variables_unique (setup : Setup) (document : Json) (query : Query)
    (distinct : document.hasDistinctKeys = true)
    (h : setup.grammar.query document = .ok query) :
  query.template.placeholders.Nodup ∧
    ∀ entries frame found,
      setup.Meets document ⟨.production .nodeObject, .object entries, frame⟩ found →
        ∃ context branches, NodeObject.Reads setup entries frame context branches ∧
          NodeObject.Visited setup branches ∧
          found = NodeObject.matchOf context frame.target entries branches ∧
          NodeObject.Separate (NodeObject.scopeOf context frame.target entries) branches
  := by
  obtain ⟨found, log, derived, rfl⟩ := query_eq_ok.mp h
  constructor
  · apply derived.nodup_placeholders distinct
  · rintro entries frame found ⟨whole, log', derived', hmem⟩
    obtain ⟨log'', node, -⟩ := derived'.of_mem hmem
    obtain ⟨context, branches, reads, visited, hfound⟩ := NodeObject.exists_reads node
    use context, branches, reads, visited, hfound
    apply reads.separate visited

/-- Names that are alike in a document: two properties called `name`, one of them within the other,
and a third that has the name which the second is given. -/
def namesake : Json :=
  .object
    [("http://a/name", .string "?"),
      ("http://b/name", .object [("http://a/name", .array [.string "?"])]),
      ("http://a/name_2", .string "?")]

theorem variables_unique_namesake :
  ∃ query, ({} : Setup).grammar.query namesake = .ok query ∧
    query.template.placeholders
      = [⟨"root·name"⟩, ⟨"root·name_2·name"⟩, ⟨"root·name_2_2"⟩] ∧
    query.template.placeholders.Nodup ∧
    ∀ entries frame found,
      Setup.Meets {} namesake ⟨.production .nodeObject, .object entries, frame⟩ found →
        ∃ context branches, NodeObject.Reads {} entries frame context branches ∧
          NodeObject.Visited {} branches ∧
          found = NodeObject.matchOf context frame.target entries branches ∧
          NodeObject.Separate (NodeObject.scopeOf context frame.target entries) branches
  := by
  have houtcome : (({} : Setup).grammar.query namesake).toOption.map
      (fun query => query.template.placeholders)
        = some [⟨"root·name"⟩, ⟨"root·name_2·name"⟩, ⟨"root·name_2_2"⟩] := by decide +kernel
  obtain ⟨query, h, hplaceholders⟩ := exists_of_outcome _ _ houtcome
  use query, h, hplaceholders
  apply variables_unique {} namesake query (by decide +kernel) h

end LinkedQuery
