import LinkedQuery.Proofs.Reading.Log
import LinkedQuery.Proofs.Reading.Rename

/-!
# Aliases

A term can stand for a keyword.  It can be put in the place of the keyword in an object whose
context defines it: `alias_transparent` says that the query stays the same, up to the name of the
key, when the terms above the object read it by the same task as before.
-/

namespace LinkedQuery

section Objects

variable {setup : Setup} {ρ : String → String} {context : Context} {target : Variable}
  {entries : List (String × Json)} {key : String} {value : Json} {found : Match}

/-! ### Objects with renamed keys -/

theorem Template.around_rename (renames : Renames context entries ρ) (held : (key, value) ∈ entries)
    (template : Template) :
  around (Entries.rename ρ entries) (ρ key) template = (around entries key template).rename ρ
  := by
  simp only [around, Template.rename, Entries.rename, List.map_map, Template.object.injEq]
  apply List.map_congr_left
  intro entry hentry
  simp only [Function.comp_apply, renames.eq_iff hentry held]

namespace ValueObject

theorem languageIn_rename (renames : Renames context entries ρ) :
  languageIn context (Entries.rename ρ entries)
    = (languageIn context entries).map fun language => (ρ language.1, language.2)
  := by
  rw [languageIn, languageIn, renames.entryFor?]
  cases context.entryFor? entries .language with
  | none => rfl
  | some entry => simp [Function.comp_def]

theorem datatypeIn_rename (renames : Renames context entries ρ) :
  (datatypeIn context (Entries.rename ρ entries)).1 = (datatypeIn context entries).1 ∧
    Moved ρ [] (datatypeIn context entries).2 (datatypeIn context (Entries.rename ρ entries)).2
  := by
  rw [datatypeIn, datatypeIn, renames.entryFor?]
  cases context.entryFor? entries .type with
  | none => exact ⟨rfl, rfl⟩
  | some entry =>
      simp only [Option.map_some, datatypeOf]
      split
      · exact ⟨rfl, rfl⟩
      · exact ⟨rfl, rfl⟩

theorem literalOf_rename (ρ : String → String) (scalar : Scalar)
    (language : Option (String × String)) (datatype : Option String) :
  let renamed := language.map fun language => (ρ language.1, language.2)
  (literalOf scalar renamed datatype).1 = (literalOf scalar language datatype).1 ∧
    Moved ρ [] (literalOf scalar language datatype).2 (literalOf scalar renamed datatype).2
  := by
  cases language with
  | none => cases scalar with
    | _ => exact ⟨rfl, rfl⟩
  | some language => cases scalar with
    | string text =>
        simp only [literalOf, Option.map_some]
        split
        · exact ⟨rfl, rfl⟩
        · exact ⟨rfl, rfl⟩
    | _ => exact ⟨rfl, rfl⟩

/-- A value object with renamed keys. -/
theorem renamed_matchOf (renames : Renames context entries ρ)
    (held : context.entryFor? entries .value = some (key, value)) :
  Renamed ρ [] (matchOf context target entries key value)
    (matchOf context target (Entries.rename ρ entries) (ρ key) value)
  := by
  have haround := Template.around_rename renames (Context.mem_of_entryFor? held)
  obtain ⟨hdatatype, hmoved⟩ := datatypeIn_rename renames
  rw [matchOf, matchOf]
  split
  · refine ⟨rfl, rfl, rfl, haround _, ?_⟩
    simp only [renames.entryFor?, Option.isSome_map]
    split
    · rfl
    · rfl
  · have hconstant : (constantOf context target (Entries.rename ρ entries) (ρ key) value).1
          = (constantOf context target entries key value).1 ∧
        Moved ρ [] (constantOf context target entries key value).2
          (constantOf context target (Entries.rename ρ entries) (ρ key) value).2 := by
      rw [constantOf, constantOf]
      split
      · rename_i scalar _
        obtain ⟨hliteral, hmoved⟩ := literalOf_rename ρ scalar (languageIn context entries)
          (datatypeIn context entries).1
        rw [languageIn_rename renames, hdatatype]
        exact ⟨congrArg Term.literal hliteral, hmoved⟩
      · exact ⟨rfl, rfl⟩
    exact ⟨hconstant.1, rfl, rfl, haround _, hmoved.append hconstant.2⟩

end ValueObject

/-- An object with a renamed key around a top-level graph. -/
theorem TopLevelGraph.renamed_matchOf (renames : Renames context entries ρ)
    (held : (key, value) ∈ entries) (contents : Match) :
  Renamed ρ [] (matchOf entries key contents)
    (matchOf (Entries.rename ρ entries) (ρ key) contents)
  := by
  refine ⟨rfl, rfl, rfl, Template.around_rename renames held _, ?_⟩
  apply Moved.flatMap
  rw [Entries.rename, List.forall₂_map_right_iff, List.forall₂_same]
  intro entry hentry
  simp only [renames.eq_iff hentry held, otherWarnings, renames.eq_context_iff hentry]
  split
  · apply Moved.nest_key
  · split
    · rfl
    · rfl

/-- A list object with renamed keys. -/
theorem ListObject.renamed_matchOf (renames : Renames context entries ρ)
    (held : (key, value) ∈ entries) (list : Match) :
  Renamed ρ [] (matchOf entries key list) (matchOf (Entries.rename ρ entries) (ρ key) list)
  := ⟨rfl, rfl, rfl, Template.around_rename renames held _, Moved.nest_key _ _⟩

/-- A graph object with renamed keys. -/
theorem GraphObject.renamed_matchOf (renames : Renames context entries ρ)
    (held : (key, value) ∈ entries) (members : Match) :
  Renamed ρ [] (matchOf context target entries key members)
    (matchOf context target (Entries.rename ρ entries) (ρ key) members)
  := by
  have hidentity : identityOf context (Entries.rename ρ entries) = identityOf context entries := by
    rw [identityOf, identityOf, renames.entryFor?, Option.map_map]
    rfl
  have hid (entry : String × Json) (hentry : entry ∈ entries) :
      ((context.entryFor? (Entries.rename ρ entries) .id).any fun found => found.1 == ρ entry.1)
        = (context.entryFor? entries .id).any fun found => found.1 == entry.1 := by
    rw [renames.entryFor?]
    cases hfound : context.entryFor? entries .id with
    | none => rfl
    | some found =>
        rw [Bool.eq_iff_iff, Option.map_some, Option.any_some, Option.any_some, beq_iff_eq,
          beq_iff_eq, renames.eq_iff (Context.mem_of_entryFor? hfound) hentry]
  have hshare (entry : String × Json) (hentry : entry ∈ entries) :
      let share := shareOf context target entries key members entry.1 entry.2
      let share' :=
        shareOf context target (Entries.rename ρ entries) (ρ key) members (ρ entry.1) entry.2
      share'.template = share.template ∧ Moved ρ [] share.warnings share'.warnings := by
    simp only [shareOf, renames.eq_iff hentry held, hid entry hentry, hidentity]
    split
    · exact ⟨rfl, Moved.nest_key _ _⟩
    · split
      · simp only [idShare]
        split
        · exact ⟨rfl, rfl⟩
        · exact ⟨rfl, rfl⟩
        · exact ⟨rfl, rfl⟩
      · simp only [otherShare, renames.meaning entry hentry]
        split
        · exact ⟨rfl, rfl⟩
        · exact ⟨rfl, rfl⟩
        · exact ⟨rfl, rfl⟩
  constructor
  · simp only [matchOf, hidentity]
  · simp only [matchOf, hidentity]
  · simp only [matchOf, hidentity]
  · simp only [matchOf, Template.modify, Template.rename, Entries.rename, List.map_map,
      Template.object.injEq]
    apply List.map_congr_left
    intro entry hentry
    exact congrArg (Prod.mk (ρ entry.1)) (hshare entry hentry).1
  · apply Moved.flatMap
    rw [Entries.rename, List.forall₂_map_right_iff, List.forall₂_same]
    intro entry hentry
    apply (hshare entry hentry).2

/-- A visit that leads to the value under a keyword leads there from renamed keys, too. -/
theorem Leads.exists_renamed {outer inner : Visit} {make : Match → Match}
    (step : Leads setup outer inner make) (object : outer.value = .object entries)
    (entered : setup.enter outer.frame.context (entries.lookup Keyword.context.text) = .ok context)
    (renames : Renames context entries ρ) (further : setup.stepsOf outer ≠ []) :
  ∃ make', Leads setup (outer.modify (Json.rename ρ) []) inner make' ∧
    ∀ item, Renamed ρ [] (make item) (make' item)
  := by
  have hlookup := renames.lookup
  cases step with
  | document | documentGraph | documents | nodeObjects | entryValue | graphNodes | graphNode
  | graphValue => exact absurd rfl further
  | items | members => cases object
  | onlyMember single => simp [Setup.stepsOf, single] at further
  | topLevelGraph entered' held chosen =>
      cases object
      rw [entered, Except.ok.injEq] at entered'
      subst entered'
      refine ⟨_, .topLevelGraph (hlookup ▸ entered) ?_ chosen,
        TopLevelGraph.renamed_matchOf renames (Context.mem_of_entryFor? held)⟩
      rw [renames.entryFor?, held]
      rfl
  | listObject entered' held =>
      cases object
      rw [entered, Except.ok.injEq] at entered'
      subst entered'
      refine ⟨_, .listObject (hlookup ▸ entered) ?_,
        ListObject.renamed_matchOf renames (Context.mem_of_entryFor? held)⟩
      rw [renames.entryFor?, held]
      rfl
  | graphObject entered' held =>
      cases object
      rw [entered, Except.ok.injEq] at entered'
      subst entered'
      refine ⟨_, .graphObject (hlookup ▸ entered) ?_,
        GraphObject.renamed_matchOf renames (Context.mem_of_entryFor? held)⟩
      rw [renames.entryFor?, held]
      rfl

/-- The visit to an object with renamed keys has the renamed match. -/
theorem Derives.exists_renamed {visit : Visit} {log : Log} (derived : Derives setup visit found log)
    (object : visit.value = .object entries)
    (entered : setup.enter visit.frame.context (entries.lookup Keyword.context.text) = .ok context)
    (renames : Renames context entries ρ) :
  ∃ found', setup.run (visit.modify (Json.rename ρ) []) = .ok found' ∧ Renamed ρ [] found found'
  := by
  induction derived with
  | ends last =>
      cases last with
      | null | placeholder | noItems | noMembers => cases object
      | scalar known held =>
          subst object
          cases held
      | noNodes refused =>
          subst object
          cases refused
      | setObject =>
          subst object
          exact ⟨_, Ends.setObject.run, rfl, rfl, rfl, rfl, rfl⟩
      | valueObject entered' held =>
          cases object
          rw [entered, Except.ok.injEq] at entered'
          subst entered'
          have held' := renames.entryFor? .value
          rw [held] at held'
          exact ⟨_, (Ends.valueObject (renames.lookup ▸ entered) held').run,
            ValueObject.renamed_matchOf renames held⟩
  | @leads outer inner make item log step read ih =>
      by_cases hsteps : setup.stepsOf outer = []
      · -- The visit goes on with the object itself, in the same context.
        have hinside := step.inside
        rw [hsteps] at hinside
        obtain ⟨hvalue, hcontext⟩ := hinside.of_nil
        obtain ⟨item', hitem', hrenamed⟩ := ih (hvalue.trans object) (hcontext ▸ entered)
        have halike : Alike setup inner.frame.context inner.value (inner.value.rename ρ) := by
          rw [hvalue, object, hcontext]
          apply renames.alike entered
        have hstep : Leads setup (outer.modify (Json.rename ρ) (setup.stepsOf outer))
            (inner.modify (Json.rename ρ) []) make := (step.modify halike).1
        have hlead := hrenamed.lead step
        rw [hsteps] at hstep hlead
        exact ⟨make item', hstep.run_eq_ok.mpr ⟨item', hitem', rfl⟩, hlead⟩
      · obtain ⟨make', step', hrenamed⟩ := step.exists_renamed object entered renames hsteps
        exact ⟨make' item, step'.run_eq_ok.mpr ⟨item, read.run, rfl⟩, hrenamed item⟩
  | @node entries' frame context' branches reads read ih =>
      cases object
      have hentered := reads.entered
      rw [entered, Except.ok.injEq] at hentered
      subst hentered
      refine ⟨_, (reads.rename renames).run ?_, reads.renamed renames⟩
      intro row link inner item trace hmem
      obtain ⟨branch, hbranch, heq⟩ := List.mem_map.mp hmem
      cases branch with
      | plain row' => cases heq
      | linked row' link' inner' item' trace' =>
          cases heq
          apply (read row' link inner item trace hbranch).run

end Objects

/-! ### Queries -/

/-- The renaming of a keyword to a term. -/
def Keyword.aliased (keyword : Keyword) (term : String) (name : String) : String :=
  if name = keyword.text then term else name

/-- A keyword can be renamed to a term that stands for it and is no key of the object yet. -/
theorem Keyword.renames {context : Context} {entries : List (String × Json)} {keyword : Keyword}
    {term : String} (other : keyword ≠ .context)
    (meaning : context.meaning term = .keyword keyword) (fresh : term ∉ entries.map Prod.fst) :
  Renames context entries (keyword.aliased term)
  := by
  have hfresh (entry : String × Json) (hentry : entry ∈ entries) : term ≠ entry.1 := by
    rintro rfl
    exact fresh (List.mem_map_of_mem hentry)
  constructor
  · intro entry hentry
    rw [aliased]
    split
    · rename_i hkey
      rw [meaning, hkey, Context.meaning_text]
    · rfl
  · intro entry hentry entry' hentry' heq
    rw [aliased, aliased] at heq
    split at heq
    · rename_i hkey
      split at heq
      · rename_i hkey'
        rw [hkey, hkey']
      · exact absurd heq (hfresh entry' hentry')
    · split at heq
      · exact absurd heq.symm (hfresh entry hentry)
      · exact heq
  · intro entry hentry hkept
    rw [aliased]
    split
    · rename_i hkey
      rw [hkey] at hkept
      exact absurd (hkept keyword (Context.meaning_text context keyword)) other
    · rfl

/-- A link reads an object with an alias by the same task as before when its term declares no
container for lists or graphs, or when the alias is known in its context. -/
theorem NodeObject.Link.task_aliased {link : NodeObject.Link} {inner : Context}
    {entries : List (String × Json)} {keyword : Keyword} {term : String}
    (other : keyword ≠ .context) (fresh : term ∉ entries.map Prod.fst)
    (h : link.definition.has .list = false ∧ link.definition.has .graph = false
      ∨ inner.meaning term = .keyword keyword) :
  link.task (inner.shape ((Json.object entries).rename (keyword.aliased term)))
    = link.task (inner.shape (.object entries))
  := by
  rcases h with ⟨hlist, hgraph⟩ | meaning
  · simp [task, hlist, hgraph]
  · have renames := Keyword.renames other meaning fresh
    congr 1
    apply Context.objectShape_congr
    intro found
    rw [renames.entryFor?, Option.isSome_map]

/-- When a keyword of an object is renamed to a term that stands for it in the context of the
object, and the links that lead straight to the object read it by the same task as before, the query
keeps its pattern and its selected variables, and the template and the places of the warnings are
renamed with the object. -/
theorem alias_transparent (setup : Setup) (document : Json) (query : Query) (path : List Step)
    (visit : Visit) (entries : List (String × Json)) (context : Context) (keyword : Keyword)
    (term : String) (distinct : document.hasDistinctKeys = true)
    (h : setup.grammar.query document = .ok query)
    (comes : Comes setup (setup.documentVisit document) path visit)
    (object : visit.value = .object entries)
    (entered : setup.enter visit.frame.context (entries.lookup Keyword.context.text) = .ok context)
    (other : keyword ≠ .context) (meaning : context.meaning term = .keyword keyword)
    (fresh : term ∉ entries.map Prod.fst)
    (seen : setup.ReadsAlike (setup.documentVisit document) path visit.value
      (visit.value.rename (keyword.aliased term))) :
  ∃ query', setup.grammar.query (document.modify (Json.rename (keyword.aliased term)) path)
      = .ok query' ∧
    query'.pattern = query.pattern ∧
    query'.template = query.template.modify (Template.rename (keyword.aliased term)) path ∧
    query'.warnings.map Warning.path
      = query.warnings.map fun warning => renameAt (keyword.aliased term) path warning.path
  := by
  have renames := Keyword.renames other meaning fresh
  obtain ⟨found, log, derived, rfl⟩ := query_eq_ok.mp h
  have halike : Alike setup visit.frame.context visit.value
      (visit.value.rename (keyword.aliased term)) := by
    rw [object]
    apply renames.alike entered
  obtain ⟨-, found', hfound', hrenamed⟩ := comes.transfer
    (carries_renamed setup visit (keyword.aliased term)) distinct halike (fun hitem => by
      obtain ⟨trace, derived'⟩ := exists_derives _ _ hitem
      apply derived'.exists_renamed object entered renames) seen derived.run
  obtain ⟨log', derived'⟩ := exists_derives _ _ hfound'
  refine ⟨found'.query, query_eq_ok.mpr ⟨found', log', derived', rfl⟩, ?_, hrenamed.template_eq,
    hrenamed.moved⟩
  simp only [Match.query, hrenamed.pattern_eq, hrenamed.projections_eq]

/-- A part of a work, in whose own context a term stands for the name. -/
def prelude : List (String × Json) :=
  [("@context", .object [("name", .string "@id")]), ("@id", .string "?"), ("note", .null)]

/-- A document about a work with its part. -/
def work : Json :=
  .object [("ex:part", .object prelude)]

/-- The part of the work with the alias for its name. -/
theorem alias_transparent_name :
  ∃ query query', ({} : Setup).grammar.query work = .ok query ∧
    ({} : Setup).grammar.query (work.modify (Json.rename (Keyword.id.aliased "name"))
      [.key "ex:part"]) = .ok query' ∧
    query'.pattern = query.pattern ∧
    query'.template = query.template.modify (Template.rename (Keyword.id.aliased "name"))
      [.key "ex:part"] ∧
    query'.warnings.map Warning.path = [[.key "ex:part", .key "note"]]
  := by
  have houtcome : (({} : Setup).grammar.query work).toOption.map (·.warnings.map Warning.path)
      = some [[.key "ex:part", .key "note"]] := by decide +kernel
  obtain ⟨query, h, hpaths⟩ := exists_of_outcome _ _ houtcome
  have hcontext : (({} : Setup).enter {} (some (.object [("name", .string "@id")]))).toOption.map
      (·.meaning "name") = some (.keyword .id) := by decide +kernel
  obtain ⟨context, entered, meaning⟩ := exists_of_outcome _ _ hcontext
  have linked : NodeObject.LinkedAt {} ⟨⟨"root"⟩, {}, none⟩ {} []
      ⟨.property "ex:part" false ⟨"root·part"⟩, "ex:part", .object prelude⟩ []
      ⟨"ex:part", false, ⟨"root·part"⟩, {}⟩ {} :=
    NodeObject.linkedAt_undefined rfl (by decide +kernel) (by decide +kernel)
  have comes : Comes {} (({} : Setup).documentVisit work) [.key "ex:part"]
      ⟨.production .entryValue, .object prelude, ⟨⟨"root·part"⟩, {}, none⟩⟩ :=
    .lead (.document rfl rfl) (.entry linked .here)
  -- The only link to the part is a term without a definition, so it declares no container.
  have seen : ({} : Setup).ReadsAlike (({} : Setup).documentVisit work) [.key "ex:part"]
      (.object prelude) ((Json.object prelude).rename (Keyword.id.aliased "name")) := by
    intro front frame own before row after link inner comes linked hpath _
    have hfront : front = [] := by
      cases front with
      | nil => rfl
      | cons step front => simp at hpath
    obtain ⟨hwork, hframe⟩ := comes.of_nil hfront
    have hentered := linked.entered
    rw [Json.object.inj hwork, hframe] at hentered
    obtain rfl : {} = own := Except.ok.inj hentered
    apply NodeObject.Link.task_aliased (by decide) (by decide)
    left
    rw [NodeObject.Row.definition_of_link linked.linked]
    exact ⟨rfl, rfl⟩
  obtain ⟨query', h', hpattern, htemplate, hpaths'⟩ := alias_transparent {} work query _ _ prelude
    context .id "name" (by decide) h comes rfl entered (by decide) meaning (by decide) seen
  refine ⟨query, query', h, h', hpattern, htemplate, ?_⟩
  have hrenamed := congrArg
    (List.map (renameAt (Keyword.id.aliased "name") [.key "ex:part"])) hpaths
  rw [List.map_map] at hrenamed
  exact hpaths'.trans hrenamed

/-- A context in which a term holds a list. -/
def tracksContext : Json :=
  .object [("track", .object [("@id", .string "ex:track"), ("@container", .string "@list")])]

/-- A context in which a term stands for the keyword for lists. -/
def itemsContext : Json :=
  .object [("items", .string "@list")]

/-- A document about the tracks of a record, under a term that holds a list. -/
def tracks : Json :=
  .object [("@context", tracksContext),
    ("track", .object [("@context", itemsContext), ("@list", .array [.string "?"])])]

/-- The list of tracks with the alias: the link reads it in the context of the record, in which the
alias is unknown, and takes the list for the first item of another one. -/
theorem alias_unknown_items :
  ∃ context inner query query',
    ({} : Setup).enter {} (some tracksContext) = .ok context ∧
    ({} : Setup).enter context (some itemsContext) = .ok inner ∧
    inner.meaning "items" = .keyword .list ∧
    ({} : Setup).grammar.query tracks = .ok query ∧
    ({} : Setup).grammar.query (tracks.modify (Json.rename (Keyword.list.aliased "items"))
      [.key "track"]) = .ok query' ∧
    query.projections = [⟨"root·track·item"⟩] ∧ query'.projections = [⟨"root·track·item·item"⟩] ∧
    query'.pattern ≠ query.pattern
  := by
  have hcontexts : (({} : Setup).enter {} (some tracksContext) >>= fun context =>
      ({} : Setup).enter context (some itemsContext)).toOption.map (·.meaning "items")
        = some (.keyword .list) := by decide +kernel
  obtain ⟨inner, hentering, hmeaning⟩ := exists_of_outcome _ _ hcontexts
  obtain ⟨context, hcontext, hinner⟩ := bind_eq_ok.mp hentering
  have houtcome : (({} : Setup).grammar.query tracks).toOption.map Query.projections
      = some [⟨"root·track·item"⟩] := by decide +kernel
  have houtcome' : (({} : Setup).grammar.query (tracks.modify
      (Json.rename (Keyword.list.aliased "items")) [.key "track"])).toOption.map Query.projections
        = some [⟨"root·track·item·item"⟩] := by decide +kernel
  obtain ⟨query, h, hselected⟩ := exists_of_outcome _ _ houtcome
  obtain ⟨query', h', hselected'⟩ := exists_of_outcome _ _ houtcome'
  refine ⟨context, inner, query, query', hcontext, hinner, hmeaning, h, h', hselected, hselected',
    ?_⟩
  intro heq
  rw [Query.projections, heq, ← Query.projections, hselected] at hselected'
  simp at hselected'

end LinkedQuery
