import LinkedQuery.Proofs.Reading.Log
import LinkedQuery.Proofs.Variables.Occurrence
import Mathlib.Tactic.Tauto

/-!
# Selected variables

A query selects exactly the variables that its template needs: those of the placeholders, and
those of the arrays whose first item binds the variable of the array.
-/

namespace LinkedQuery

/-- The match of the first item of an array that a visit reads, and the variable of the array. -/
inductive FirstItem (setup : Setup) : Visit → Variable → Match → Prop where
  | items {production : Production} {first : Json} {rest : List Json} {frame : Frame} {item : Match}
      (read : setup.run ⟨.production production, first, frame⟩ = .ok item) :
      FirstItem setup ⟨.items production, .array (first :: rest), frame⟩ frame.target item
  | members {first : Json} {rest : List Json} {frame : Frame} {member : Variable} {item : Match}
      (under : member = setup.naming.child frame.target memberSegment)
      (read : setup.run ⟨.production .entryValue, first, ⟨member, frame.context, none⟩⟩
        = .ok item) :
      FirstItem setup ⟨.listMembers, .array (first :: rest), frame⟩ member item

variable {setup : Setup}

/-- Whether a visit reads an array whose first item binds the variable of the array. -/
def BindsItems (setup : Setup) (visit : Visit) (v : Variable) : Prop :=
  ∃ item, FirstItem setup visit v item ∧ item.term = .var v

/-! ### Placeholders -/

/-- The placeholders of an object around a template are those of the template. -/
theorem Template.mem_placeholders_around {entries : List (String × Json)} {key : String}
    {value : Json} (held : (key, value) ∈ entries) {template : Template} {v : Variable} :
  v ∈ (around entries key template).placeholders ↔ v ∈ template.placeholders
  := by
  simp only [around, placeholders_object, List.flatMap_map, List.mem_flatMap]
  constructor
  · rintro ⟨entry, -, h⟩
    split at h
    · apply h
    · cases h
  · intro h
    use (key, value), held
    simpa using h

/-- The placeholders of a graph object are those of the members and that of the name. -/
theorem GraphObject.mem_placeholders_matchOf {context : Context} {target : Variable}
    {entries : List (String × Json)} {graphKey : String} {graph : Json} {members : Match}
    (held : context.entryFor? entries .graph = some (graphKey, graph)) {v : Variable} :
  v ∈ (matchOf context target entries graphKey members).template.placeholders
    ↔ (identityOf context entries = some .placeholder ∧ v = target)
      ∨ v ∈ members.template.placeholders
  := by
  simp only [matchOf, Template.placeholders_object, List.flatMap_map, List.mem_flatMap]
  constructor
  · rintro ⟨entry, -, h⟩
    simp only [shareOf] at h
    split at h
    · exact .inr h
    · split at h
      · simp only [idShare] at h
        split at h
        · rename_i hidentity
          exact .inl ⟨hidentity, by simpa [Template.placeholders] using h⟩
        · cases h
        · cases h
      · simp only [otherShare] at h
        split at h
        · cases h
        · cases h
        · cases h
  · rintro (⟨hidentity, rfl⟩ | h)
    · have hid := hidentity
      rw [identityOf, Option.map_eq_some_iff] at hid
      obtain ⟨entry, hentry, -⟩ := hid
      use entry, Context.mem_of_entryFor? hentry
      simp [shareOf, Context.key_ne hentry held (by decide), hentry, idShare, hidentity,
        Template.placeholders]
    · use (graphKey, graph), Context.mem_of_entryFor? held
      simpa [shareOf] using h

/-! ### Visits -/

/-- Only the visits to arrays bind items. -/
theorem BindsItems.visits_array {visit : Visit} {v : Variable} (h : BindsItems setup visit v) :
  visit.value.kind = .array ∧ ((∃ production, visit.task = .items production) ∨
    visit.task = .listMembers)
  := by
  obtain ⟨item, first, -⟩ := h
  cases first with
  | items => exact ⟨rfl, .inl ⟨_, rfl⟩⟩
  | members => exact ⟨rfl, .inr rfl⟩

theorem bindsItems_items {production : Production} {first : Json} {rest : List Json}
    {frame : Frame} {item : Match} {v : Variable}
    (read : setup.run ⟨.production production, first, frame⟩ = .ok item) :
  BindsItems setup ⟨.items production, .array (first :: rest), frame⟩ v
    ↔ v = frame.target ∧ item.term = .var frame.target
  := by
  constructor
  · rintro ⟨other, ⟨read'⟩, hterm⟩
    rw [read, Except.ok.injEq] at read'
    subst read'
    exact ⟨rfl, hterm⟩
  · rintro ⟨rfl, hterm⟩
    use item, .items read, hterm

theorem bindsItems_members {first : Json} {rest : List Json} {frame : Frame} {item : Match}
    {v : Variable}
    (read : setup.run ⟨.production .entryValue, first,
      ⟨setup.naming.child frame.target memberSegment, frame.context, none⟩⟩ = .ok item) :
  BindsItems setup ⟨.listMembers, .array (first :: rest), frame⟩ v
    ↔ v = setup.naming.child frame.target memberSegment
      ∧ item.term = .var (setup.naming.child frame.target memberSegment)
  := by
  constructor
  · rintro ⟨other, first, hterm⟩
    cases first with
    | members under read' =>
        subst under
        rw [read, Except.ok.injEq] at read'
        subst read'
        exact ⟨rfl, hterm⟩
  · rintro ⟨rfl, hterm⟩
    use item, .members rfl read, hterm

/-- A visit that ends projects its placeholders. -/
theorem Ends.mem_projections {visit : Visit} {found : Match} (last : Ends setup visit found)
    (v : Variable) :
  v ∈ found.projections ↔ v ∈ found.template.placeholders ∨ BindsItems setup visit v
  := by
  have hbinds : ¬ BindsItems setup visit v := by
    rintro ⟨item, first, -⟩
    cases last with
    | noItems | noMembers | noNodes => cases first
    | _ => cases first
  rw [or_iff_left hbinds]
  cases last with
  | placeholder => rfl
  | valueObject entered held =>
      simp only [ValueObject.matchOf]
      split
      · symm
        apply Template.mem_placeholders_around (Context.mem_of_entryFor? held)
      · symm
        apply Template.mem_placeholders_around (Context.mem_of_entryFor? held)
  | _ => rfl

/-- A visit that leads to another projects what the other does, and its own variable where the
items of an array bind it. -/
theorem Leads.mem_projections {outer inner : Visit} {make : Match → Match} {found : Match}
    (step : Leads setup outer inner make) (read : setup.run inner = .ok found) {v : Variable}
    {P : Prop} (h : v ∈ found.projections ↔ v ∈ found.template.placeholders ∨ P) :
  v ∈ (make found).projections
    ↔ v ∈ (make found).template.placeholders ∨ BindsItems setup outer v ∨ P
  := by
  cases step with
  | items =>
      rw [bindsItems_items read, itemsMatch, mem_itemProjections, h]
      simp only [Template.placeholders]
      tauto
  | members =>
      rw [bindsItems_members read]
      simp only [ListObject.membersMatch, if_true, mem_itemProjections, h, Template.placeholders]
      tauto
  | onlyMember single =>
      rw [or_iff_right (a := BindsItems _ _ _) (fun hbinds => single hbinds.visits_array.1)]
      apply h
  | topLevelGraph entered held | listObject entered held =>
      rw [or_iff_right (a := BindsItems _ _ _) (fun hbinds => by cases hbinds.visits_array.1)]
      simp only [TopLevelGraph.matchOf, ListObject.matchOf,
        Template.mem_placeholders_around (Context.mem_of_entryFor? held)]
      apply h
  | graphObject entered held =>
      rw [or_iff_right (a := BindsItems _ _ _) (fun hbinds => by cases hbinds.visits_array.1),
        GraphObject.mem_placeholders_matchOf held, or_assoc, ← h]
      simp only [GraphObject.matchOf, List.mem_append]
      apply or_congr_left
      split
      · simp_all
      · simp_all
  | _ =>
      rw [or_iff_right (a := BindsItems _ _ _)
        (fun hbinds => by simpa using hbinds.visits_array)]
      apply h

/-! ### Node objects -/

namespace NodeObject

/-- The share of a row without a link projects its placeholders. -/
theorem Row.mem_projections_plainShare {scope : Scope} {row : Row} {v : Variable} :
  v ∈ (row.plainShare scope).projections ↔ v ∈ (row.plainShare scope).template.placeholders
  := by
  obtain ⟨role, key, value⟩ := row
  cases role with
  | id =>
      simp only [Row.plainShare, idShare]
      split
      · rfl
      · rfl
      · rfl
  | type child =>
      simp only [Row.plainShare]
      generalize hshare : typeShare scope child key value = share
      have hclasses := typeShare_classes scope child key value
      rw [hshare] at hclasses
      cases hclasses with
      | _ => rfl
  | property iri reverse child =>
      simp only [Row.plainShare]
      split
      · rfl
      · rfl
  | _ => rfl

/-- A branch projects its placeholders, and what is bound to items in its value. -/
theorem Branch.mem_projections (scope : Scope) {branch : Branch} {v : Variable}
    (h : ∀ row link inner item log, branch = .linked row link inner item log →
      (v ∈ item.projections ↔ v ∈ item.template.placeholders ∨
        ∃ entry ∈ (link.visit inner row.value, item) :: log, BindsItems setup entry.1 v)) :
  v ∈ (branch.share scope).projections
    ↔ v ∈ (branch.share scope).template.placeholders ∨
      ∃ entry ∈ branch.log, BindsItems setup entry.1 v
  := by
  cases branch with
  | plain row =>
      simp only [Branch.log, List.not_mem_nil, false_and, exists_false, or_false]
      apply Row.mem_projections_plainShare
  | linked row link inner item log => apply h row link inner item log rfl

end NodeObject

/-- What a visit projects are its placeholders and the variables that are bound to items by visits
to which it leads. -/
theorem Derives.mem_projections {visit : Visit} {found : Match} {log : Log}
    (derived : Derives setup visit found log) (v : Variable) :
  v ∈ found.projections
    ↔ v ∈ found.template.placeholders ∨
      ∃ entry ∈ (visit, found) :: log, BindsItems setup entry.1 v
  := by
  induction derived with
  | ends last => simpa using last.mem_projections v
  | leads step read ih =>
      rw [step.mem_projections read.run ih]
      simp
  | @node entries frame context branches reads read ih =>
      have hbranch (branch : NodeObject.Branch) (hmem : branch ∈ branches) :=
        NodeObject.Branch.mem_projections (NodeObject.scopeOf context frame.target entries)
          fun row link inner item log heq => ih row link inner item log (heq ▸ hmem)
      have hself : ¬ BindsItems setup ⟨.production .nodeObject, .object entries, frame⟩ v :=
        fun hbinds => by cases hbinds.visits_array.1
      simp only [NodeObject.matchOf, NodeObject.assemble, Template.placeholders_object,
        List.flatMap_map, List.mem_flatMap, List.mem_cons, exists_eq_or_imp, hself, false_or]
      constructor
      · rintro ⟨branch, hmem, h⟩
        rcases (hbranch branch hmem).mp h with h | ⟨entry, hentry, h⟩
        · exact .inl ⟨branch, hmem, h⟩
        · exact .inr ⟨entry, ⟨branch, hmem, hentry⟩, h⟩
      · rintro (⟨branch, hmem, h⟩ | ⟨entry, ⟨branch, hmem, hentry⟩, h⟩)
        · exact ⟨branch, hmem, (hbranch branch hmem).mpr (.inl h)⟩
        · exact ⟨branch, hmem, (hbranch branch hmem).mpr (.inr ⟨entry, hentry, h⟩)⟩

/-- The match of a visit to an array has an array template for its first item. -/
theorem FirstItem.template_eq {visit : Visit} {v : Variable} {item found : Match}
    (first : FirstItem setup visit v item) (read : setup.run visit = .ok found) :
  found.template = .array v item.template
  := by
  cases first with
  | items read' =>
      rw [run_items_cons, read', ok_bind, Except.ok.injEq] at read
      rw [← read, itemsMatch]
  | members under read' =>
      subst under
      rw [run_listMembers_cons] at read
      simp only [read', ok_bind, Except.ok.injEq] at read
      rw [← read, ListObject.membersMatch]
      rfl

/-! ### Queries -/

/-- Each variable is selected at its first place only. -/
theorem nodup_distinct (projections : List Variable) :
  (distinct projections).Nodup
  := by
  rw [distinct]
  induction hlength : projections.length using Nat.strongRecOn generalizing projections with
  | ind length ih =>
      cases projections with
      | nil => exact List.nodup_nil
      | cons v rest =>
          rw [List.eraseDups_cons, List.nodup_cons]
          constructor
          · simp
          · apply ih _ _ _ rfl
            rw [← hlength, List.length_cons, Nat.lt_succ_iff]
            apply List.length_filter_le

theorem Match.mem_projections_query {found : Match} {v : Variable} :
  v ∈ found.query.projections ↔ v ∈ found.projections
  := List.mem_eraseDups

/-- Whether a variable is that of an array of the template whose first item was found to have the
same variable as its term. -/
def Query.BindsArray (setup : Setup) (document : Json) (query : Query) (v : Variable) : Prop :=
  ∃ visit found item, setup.Meets document visit found ∧ FirstItem setup visit v item ∧
    Template.Part (.array v item.template) query.template ∧ item.term = .var v

/-- A query selects each variable once, and it selects exactly the variables of the placeholders
of its template and those of the arrays of its template whose first item has the variable of the
array as its term. -/
theorem projections_exact (setup : Setup) (document : Json) (query : Query)
    (h : setup.grammar.query document = .ok query) :
  query.projections.Nodup ∧
    ∀ v, v ∈ query.projections
      ↔ v ∈ query.template.placeholders ∨ query.BindsArray setup document v
  := by
  obtain ⟨found, log, derived, rfl⟩ := query_eq_ok.mp h
  constructor
  · apply nodup_distinct
  · intro v
    rw [Match.mem_projections_query]
    constructor
    · intro hv
      rcases (derived.mem_projections v).mp hv with hv | ⟨entry, hentry, item, first, hterm⟩
      · exact .inl hv
      · obtain ⟨log', derived', -⟩ := derived.of_mem hentry
        have hpart := derived.part hentry
        rw [first.template_eq derived'.run] at hpart
        right
        use entry.1, entry.2, item, ⟨found, log, derived, hentry⟩, first, hpart
    · rintro (hv | ⟨visit, other, item, ⟨whole, log', derived', hentry⟩, first, -, hterm⟩)
      · apply (derived.mem_projections v).mpr (.inl hv)
      · have hwhole := derived.run
        rw [derived'.run, Except.ok.injEq] at hwhole
        rw [← hwhole]
        apply (derived'.mem_projections v).mpr (.inr ⟨_, hentry, item, first, hterm⟩)

/-- A film: all actors with their names, a genre that is known, and a list of all awards. -/
def film : Json :=
  .object
    [("ex:actor", .array [.object [("ex:name", .string "?")]]),
      ("ex:genre", .array [.string "drama"]),
      ("ex:award", .object [("@list", .array [.string "?"])])]

/-- The actors are selected with their names, and the awards; the genre, an array with a constant
item, is not. -/
theorem projections_exact_film :
  ∃ query, ({} : Setup).grammar.query film = .ok query ∧
    query.projections = [⟨"root·actor"⟩, ⟨"root·actor·name"⟩, ⟨"root·award·item"⟩] ∧
    query.projections.Nodup ∧
    ∀ v, v ∈ query.projections
      ↔ v ∈ query.template.placeholders ∨ query.BindsArray {} film v
  := by
  have houtcome : (({} : Setup).grammar.query film).toOption.map Query.projections
      = some [⟨"root·actor"⟩, ⟨"root·actor·name"⟩, ⟨"root·award·item"⟩] := by decide +kernel
  obtain ⟨query, h, hselected⟩ := exists_of_outcome _ _ houtcome
  use query, h, hselected
  apply projections_exact {} film query h

end LinkedQuery
