import LinkedQuery.Proofs.Reading.Place

/-!
# The places of placeholders

Where the template of a match has its placeholders: at the places of the match to which the visit
leads, and where an object is named by the placeholder.
-/

namespace LinkedQuery

variable {setup : Setup} {path : List Step} {v : Variable}

/-! ### Objects -/

/-- The placeholders of an object around a template are those of the template. -/
theorem Template.holds_around {entries : List (String × Json)} {key : String} {value : Json}
    {template : Template} (distinct : (entries.map Prod.fst).Nodup)
    (held : (key, value) ∈ entries) :
  (around entries key template).Holds path v
    ↔ ∃ rest, path = .key key :: rest ∧ template.Holds rest v
  := by
  rw [around, holds_object (by simpa [Function.comp_def] using distinct)]
  constructor
  · rintro ⟨key', template', rest, rfl, hmem, h⟩
    obtain ⟨entry, -, heq⟩ := List.mem_map.mp hmem
    obtain ⟨rfl, rfl⟩ := Prod.mk.inj heq
    split at h
    · rename_i hkey
      exact ⟨rest, by rw [hkey], h⟩
    · simp at h
  · rintro ⟨rest, rfl, h⟩
    refine ⟨key, template, rest, rfl, List.mem_map.mpr ⟨(key, value), held, ?_⟩, h⟩
    simp

/-- The placeholders of a graph object are those of the members and that of the name. -/
theorem GraphObject.holds_matchOf {context : Context} {target : Variable}
    {entries : List (String × Json)} {graphKey : String} {graph : Json} {members : Match}
    (distinct : (entries.map Prod.fst).Nodup)
    (held : context.entryFor? entries .graph = some (graphKey, graph)) :
  (matchOf context target entries graphKey members).template.Holds path v
    ↔ (∃ rest, path = .key graphKey :: rest ∧ members.template.Holds rest v)
      ∨ ∃ key, context.entryFor? entries .id = some (key, .string placeholder) ∧
        path = [.key key] ∧ v = target
  := by
  simp only [matchOf]
  rw [Template.holds_object (by simpa [Function.comp_def] using distinct)]
  constructor
  · rintro ⟨key, template, rest, rfl, hmem, h⟩
    obtain ⟨entry, -, heq⟩ := List.mem_map.mp hmem
    obtain ⟨rfl, rfl⟩ := Prod.mk.inj heq
    simp only [shareOf] at h
    split at h
    · rename_i hkey
      exact .inl ⟨rest, by rw [hkey], h⟩
    · split at h
      · rename_i hany
        simp only [idShare] at h
        split at h
        · rename_i hidentity
          rw [identityOf, Option.map_eq_some_iff] at hidentity
          obtain ⟨found, hfound, hidentity⟩ := hidentity
          rw [hfound, Option.any_some, beq_iff_eq] at hany
          obtain ⟨rfl, rfl⟩ := Template.holds_name.mp h
          refine .inr ⟨found.1, ?_, by rw [hany], rfl⟩
          rw [hfound, ← eq_placeholder_of_identity hidentity]
        · simp at h
        · simp at h
      · simp only [otherShare] at h
        split at h
        · simp at h
        · simp at h
        · simp at h
  · rintro (⟨rest, rfl, h⟩ | ⟨key, hid, rfl, rfl⟩)
    · refine ⟨graphKey, _, rest, rfl, List.mem_map.mpr ⟨_, Context.mem_of_entryFor? held, rfl⟩, ?_⟩
      simpa [shareOf] using h
    · refine ⟨key, _, [], rfl, List.mem_map.mpr ⟨_, Context.mem_of_entryFor? hid, rfl⟩, ?_⟩
      have hidentity : identityOf context entries = some .placeholder := by
        rw [identityOf, hid]
        rfl
      simp [shareOf, Context.key_ne hid held (by decide), hid, idShare, hidentity]

/-- The placeholders of a node object are those of its branches. -/
theorem NodeObject.Reads.holds_matchOf {entries : List (String × Json)} {frame : Frame}
    {context : Context} {branches : List NodeObject.Branch}
    (reads : NodeObject.Reads setup entries frame context branches)
    (distinct : (entries.map Prod.fst).Nodup) :
  (NodeObject.matchOf context frame.target entries branches).template.Holds path v
    ↔ ∃ branch ∈ branches, ∃ rest, path = .key branch.row.key :: rest ∧
      (branch.share (NodeObject.scopeOf context frame.target entries)).template.Holds rest v
  := by
  have hkeys : (branches.map fun branch => branch.row.key).Nodup := by
    rw [← reads.map_key]
    apply distinct
  simp only [NodeObject.matchOf, NodeObject.assemble, List.map_map]
  rw [Template.holds_object (by simpa [Function.comp_def] using hkeys)]
  constructor
  · rintro ⟨key, template, rest, rfl, hmem, h⟩
    obtain ⟨branch, hbranch, heq⟩ := List.mem_map.mp hmem
    obtain ⟨rfl, rfl⟩ := Prod.mk.inj heq
    exact ⟨branch, hbranch, rest, rfl, h⟩
  · rintro ⟨branch, hbranch, rest, rfl, h⟩
    exact ⟨branch.row.key, _, rest, rfl, List.mem_map.mpr ⟨branch, hbranch, rfl⟩, h⟩

/-! ### Visits -/

/-- The placeholders of the match to which a visit leads are at the next value, and there is one
more where a graph object is named by it. -/
theorem Leads.holds {outer inner : Visit} {make : Match → Match} {found : Match}
    (step : Leads setup outer inner make) (distinct : outer.value.hasDistinctKeys = true) :
  (make found).template.Holds path v
    ↔ (∃ rest, path = setup.stepsOf outer ++ rest ∧ found.template.Holds rest v)
      ∨ ∃ entries context key, outer.task = .production .graphObject ∧
        outer.value = .object entries ∧
        setup.enter outer.frame.context (entries.lookup Keyword.context.text) = .ok context ∧
        context.entryFor? entries .id = some (key, .string placeholder) ∧
        path = [.key key] ∧ v = outer.frame.target
  := by
  cases step with
  | document | documentGraph | documents | nodeObjects | graphNodes | graphNode | graphValue =>
      simp [Setup.stepsOf, Production.keyword?, GraphObject.ofMembers]
  | entryValue => simp [Setup.stepsOf, Production.keyword?]
  | onlyMember single => simp [Setup.stepsOf, single, ListObject.membersMatch]
  | items => simp [Setup.stepsOf, itemsMatch]
  | members => simp [Setup.stepsOf, ListObject.membersMatch, Json.kind]
  | topLevelGraph entered held | listObject entered held =>
      have hkeys := (Json.hasDistinctKeys_object.mp distinct).1
      simp [Setup.stepsOf, Production.keyword?, Setup.stepTo?_eq_some entered held,
        TopLevelGraph.matchOf, ListObject.matchOf,
        Template.holds_around hkeys (Context.mem_of_entryFor? held)]
  | graphObject entered held =>
      have hkeys := (Json.hasDistinctKeys_object.mp distinct).1
      rw [GraphObject.holds_matchOf hkeys held]
      simp [Setup.stepsOf, Production.keyword?, Setup.stepTo?_eq_some entered held, entered]

end LinkedQuery
