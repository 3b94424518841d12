import LinkedQuery.Proofs.Reading.Trim
import LinkedQuery.Proofs.Solutions.Node

/-!
# Optional entries

An optional entry extends the rows of its node where it can.  `rows_kept_iff` says which rows of a
document survive when an optional entry is added to the end of one of its node objects.  Rows in
which the node has a value already are kept; but a node object that is empty without the entry
matches once and binds nothing, and then the entry alone says which nodes there are.
-/

namespace LinkedQuery

open Solution Solutions

open NodeObject (LinkedAt isOptional)

/-! ### Trimmed nodes -/

/-- How the matches of a node object and of the same one without its last entry are related: the
entry adds an optional fragment.  The fragment shares at most the name of the node with the rest,
and the rest leaves the name settled. -/
structure Attaches (setup : Setup) (target child : Variable) (fragment : Pattern)
    (whole part : Match) : Prop where
  child_eq : ∃ segment, child = setup.naming.child target segment
  pattern_eq : whole.pattern = .leftJoin part.pattern fragment
  term_eq : part.term = whole.term
  fresh : ∀ v ∈ part.vars, ¬ setup.naming.Below child v
  covered : ∀ v ∈ fragment.vars, v ∈ part.term.vars ∨ setup.naming.Below child v
  settled : ∀ v ∈ part.term.vars, ∀ dataset active,
    Settles (part.pattern.solutions dataset active) v

variable {setup : Setup} {node rest outer outer' : Visit} {whole part found : Match}

theorem DropsLast.attaches (drops : DropsLast setup node rest) (h : setup.run node = .ok whole) :
  ∃ child fragment part, setup.run rest = .ok part ∧
    Attaches setup node.frame.target child fragment whole part
  := by
  cases drops with
  | @entry frame context inner before row link last present optional =>
      obtain ⟨log, derived⟩ := exists_derives _ _ h
      obtain ⟨context', branches, reads, visited, rfl⟩ := NodeObject.exists_reads derived
      obtain ⟨rfl, earlier, item, log', later, rfl, rfl, hafter⟩ := last.exists_branches reads
      obtain rfl : later = [] := List.map_eq_nil_iff.mp hafter.symm
      have hidentity := last.scopeOf_skip row.value
      rw [List.append_nil] at hidentity
      have hreads := reads.dropLast (by
        rw [NodeObject.Row.entry, lookup_skip last.key_ne, List.append_nil])
      have hrun := hreads.run fun row link inner item log hbranch =>
        (visited row link inner item log (List.mem_append_left _ hbranch)).run
      have hitem := visited row link inner item log' (by simp)
      have hpattern := NodeObject.pattern_matchOf_last earlier item log' hidentity.symm present
        optional
      rw [hidentity] at hpattern
      refine ⟨link.child, _, _, hrun, last.exists_segment, hpattern, ?_, ?_, ?_, ?_⟩
      · apply congrArg NodeObject.Scope.subject hidentity.symm
      · intro v hv
        apply reads.not_below visited
        rw [List.append_nil]
        apply NodeObject.mem_vars_matchOf hv
      · intro v hv
        rcases NodeObject.Link.mem_vars_fragment hv with hv | hv
        · exact .inl hv
        · exact .inr (hitem.within v hv)
      · intro v hv dataset active
        apply NodeObject.settles_matchOf _ hv

/-! ### Trimmed documents -/

/-- How the matches of a value and of the same one with a trimmed node are related: the solutions
of the one are those of the other with the node in the place of the trimmed one. -/
structure Trimmed (setup : Setup) (child : Variable) (whole part found found' : Match) : Prop where
  term_eq : found'.term = found.term
  fresh : ∀ v ∈ found'.vars, ¬ setup.naming.Below child v
  around : ∀ dataset active, Around (whole.pattern.solutions dataset active)
    (part.pattern.solutions dataset active) (found.pattern.solutions dataset active)
    (found'.pattern.solutions dataset active)

/-- Whether the nodes and the visit to a value with the trimmed node have matches, and the match of
that visit is related to the match of the whole value. -/
def HasTrimmed (setup : Setup) (node rest outer' : Visit) (found : Match) : Prop :=
  ∃ whole part child fragment found', setup.run node = .ok whole ∧ setup.run rest = .ok part ∧
    Attaches setup node.frame.target child fragment whole part ∧
    setup.run outer' = .ok found' ∧ Trimmed setup child whole part found found'

/-- A node object has its trimmed version. -/
theorem DropsLast.hasTrimmed (drops : DropsLast setup node rest)
    (h : setup.run node = .ok found) :
  HasTrimmed setup node rest rest found
  := by
  obtain ⟨child, fragment, part, hrest, attaches⟩ := drops.attaches h
  refine ⟨found, part, child, fragment, part, h, hrest, attaches, hrest, ?_⟩
  exact ⟨attaches.term_eq, attaches.fresh, fun _ _ => Around.here⟩

/-- What is an ancestor of a trimmed node is not below the variable of the entry. -/
theorem Attaches.not_below {target child v : Variable} {fragment : Pattern}
    (attaches : Attaches setup target child fragment whole part)
    (h : setup.naming.Below v target) :
  ¬ setup.naming.Below child v
  := by
  intro hbelow
  obtain ⟨segment, rfl⟩ := attaches.child_eq
  exact Naming.Below.not_child _ _ (hbelow.trans h)

/-- Whether the term and the pattern of a match are kept. -/
def Keeps (make : Match → Match) : Prop :=
  ∀ item, (make item).term = item.term ∧ (make item).pattern = item.pattern

theorem keeps_id :
  Keeps id
  := fun _ => ⟨rfl, rfl⟩

theorem keeps_items (target : Variable) :
  Keeps (itemsMatch target)
  := fun _ => ⟨rfl, rfl⟩

theorem keeps_topLevelGraph (entries : List (String × Json)) (key : String) :
  Keeps (TopLevelGraph.matchOf entries key)
  := fun _ => ⟨rfl, rfl⟩

/-- A visit that leads to a value with a trimmed node has a match that is related as well. -/
theorem HasTrimmed.lead {inner' : Visit} {make make' : Match → Match} {item : Match}
    (known : HasTrimmed setup node rest inner' item) (keeps : Keeps make)
    (step : Leads setup outer' inner' make') (keeps' : Keeps make')
    (below : setup.naming.Below inner'.frame.target node.frame.target) :
  HasTrimmed setup node rest outer' (make item)
  := by
  obtain ⟨whole, part, child, fragment, item', hnode, hrest, attaches, hitem', trimmed⟩ := known
  refine ⟨whole, part, child, fragment, make' item', hnode, hrest, attaches,
    step.run_eq_ok.mpr ⟨item', hitem', rfl⟩, ?_⟩
  constructor
  · rw [(keeps item).1, (keeps' item').1, trimmed.term_eq]
  · intro v hv
    rcases step.mem_vars hv with rfl | rfl | hv
    · apply attaches.not_below (step.target_below.trans below)
    · apply attaches.not_below below
    · apply trimmed.fresh v hv
  · intro dataset active
    rw [(keeps item).2, (keeps' item').2]
    apply trimmed.around

/-- A node object around a value with a trimmed node has a match that is related as well. -/
theorem HasTrimmed.entry {frame : Frame} {context inner : Context}
    {before after entries entries' : List (String × Json)} {row : NodeObject.Row}
    {link : NodeObject.Link}
    (linked : LinkedAt setup frame context before row after link inner)
    (held : row.value = .object entries) (plain : link.definition.containers = [])
    (below : setup.naming.Below link.child node.frame.target)
    (known : ∀ {item}, setup.run (link.visit inner (.object entries)) = .ok item →
      HasTrimmed setup node rest (link.visit inner (.object entries')) item)
    (h : setup.run ⟨.production .nodeObject, .object (before ++ row.entry :: after), frame⟩
      = .ok found) :
  HasTrimmed setup node rest
    ⟨.production .nodeObject, .object (before ++ (row.key, .object entries') :: after), frame⟩ found
  := by
  obtain ⟨log, derived⟩ := exists_derives _ _ h
  obtain ⟨context', branches, reads, visited, rfl⟩ := NodeObject.exists_reads derived
  obtain ⟨rfl, earlier, item, itemLog, later, rfl, rfl, rfl⟩ := linked.exists_branches reads
  have hitem := (visited row link inner item itemLog (by simp)).run
  rw [held] at hitem
  obtain ⟨whole, part, child, fragment, item', hnode, hrest, attaches, hitem', trimmed⟩ :=
    known hitem
  have hbelow : setup.naming.Below link.child child := by
    obtain ⟨segment, heq⟩ := attaches.child_eq
    rw [heq]
    apply below.child
  have hidentity := (linked.scopeOf_skip (.object entries')).trans
    (linked.scopeOf_skip row.value).symm
  obtain ⟨itemLog', derived'⟩ := exists_derives _ _ hitem'
  have reads' := reads.replace (.object entries') item' itemLog' (by
    rw [NodeObject.Row.entry, lookup_skip linked.key_ne, lookup_skip linked.key_ne])
  have hrun := reads'.run (by
    intro row' link' inner' other trace hbranch
    simp only [List.mem_append, List.mem_cons] at hbranch
    rcases hbranch with hbranch | hbranch | hbranch
    · apply (visited row' link' inner' other trace (by simp [hbranch])).run
    · obtain ⟨rfl, rfl, rfl, rfl, rfl⟩ := NodeObject.Branch.linked.inj hbranch
      apply hitem'
    · apply (visited row' link' inner' other trace (by simp [hbranch])).run)
  refine ⟨whole, part, child, fragment, _, hnode, hrest, attaches, hrun, ?_⟩
  constructor
  · apply congrArg NodeObject.Scope.subject hidentity
  · apply reads.not_below_matchOf visited hbelow trimmed.fresh
  · intro dataset active
    apply (trimmed.around dataset active).trans
    apply NodeObject.around_matchOf hidentity held plain trimmed.term_eq

/-- Node objects in an array are read by the first of them. -/
theorem HasTrimmed.nodeObjects {frame : Frame} {first first' : Json} {others : List Json}
    (kind : first'.kind = first.kind)
    (below : setup.naming.Below frame.target node.frame.target)
    (known : ∀ {item}, setup.run ⟨.production .nodeObject, first, frame⟩ = .ok item →
      HasTrimmed setup node rest ⟨.production .nodeObject, first', frame⟩ item)
    (h : setup.run ⟨.production .nodeObjects, .array (first :: others), frame⟩ = .ok found) :
  HasTrimmed setup node rest ⟨.production .nodeObjects, .array (first' :: others), frame⟩ found
  := by
  have hobject : first'.isObject = first.isObject := by
    rw [Json.isObject_eq, Json.isObject_eq, kind]
  have objects : ((first :: others).find? fun item => !item.isObject) = none := by
    rw [run_nodeObjects] at h
    cases hfind : (first :: others).find? fun item => !item.isObject with
    | none => rfl
    | some item => simp [hfind] at h
  have objects' : ((first' :: others).find? fun item => !item.isObject) = none := by
    simpa [List.find?_eq_none, hobject] using objects
  obtain ⟨_, hfirst, rfl⟩ := (Leads.nodeObjects objects).run_eq_ok.mp h
  obtain ⟨item, hitem, rfl⟩ := Leads.items.run_eq_ok.mp hfirst
  have step : Leads setup ⟨.items .nodeObject, .array (first' :: others), frame⟩
      ⟨.production .nodeObject, first', frame⟩ (itemsMatch frame.target) := .items
  have hitems := (known hitem).lead (keeps_items frame.target) step (keeps_items _) below
  apply hitems.lead keeps_id (.nodeObjects objects') keeps_id below

/-- An object with a top-level graph is read by what is in the graph. -/
theorem HasTrimmed.graph {frame : Frame} {context : Context} {before after : List (String × Json)}
    {key : String} {contents contents' : Json} {production : Production}
    (entered : setup.enter frame.context
      ((before ++ (key, contents) :: after).lookup Keyword.context.text) = .ok context)
    (first : context.entryFor? before .graph = none) (held : context.meaning key = .keyword .graph)
    (chosen : TopLevelGraph.production? contents = some production)
    (kind : contents'.kind = contents.kind)
    (below : setup.naming.Below frame.target node.frame.target)
    (known : ∀ {item},
      setup.run ⟨.production production, contents, ⟨frame.target, context, none⟩⟩ = .ok item →
        HasTrimmed setup node rest
          ⟨.production production, contents', ⟨frame.target, context, none⟩⟩ item)
    (h : setup.run ⟨.production .document, .object (before ++ (key, contents) :: after), frame⟩
      = .ok found) :
  HasTrimmed setup node rest
    ⟨.production .document, .object (before ++ (key, contents') :: after), frame⟩ found
  := by
  have hheld (value : Json) :
      context.entryFor? (before ++ (key, value) :: after) .graph = some (key, value) := by
    rw [Context.entryFor?] at first
    simp [Context.entryFor?, List.find?_append, first, held]
  have hkey : key ≠ Keyword.context.text := by
    rintro rfl
    rw [context.meaning_text] at held
    cases held
  have entered' : setup.enter frame.context
      ((before ++ (key, contents') :: after).lookup Keyword.context.text) = .ok context := by
    rw [lookup_skip hkey] at entered ⊢
    apply entered
  obtain ⟨_, hgraph, rfl⟩ := (Leads.documentGraph entered (hheld contents)).run_eq_ok.mp h
  obtain ⟨item, hitem, rfl⟩ :=
    (Leads.topLevelGraph entered (hheld contents) chosen).run_eq_ok.mp hgraph
  rw [← TopLevelGraph.production?_congr kind] at chosen
  have step := Leads.topLevelGraph entered' (hheld contents') chosen
  have hcontents := (known hitem).lead
    (keeps_topLevelGraph (before ++ (key, contents) :: after) key) step
    (keeps_topLevelGraph _ key) below
  apply hcontents.lead keeps_id (.documentGraph entered' (hheld contents')) keeps_id below

/-- When a value has a match, so has the one with the trimmed node, and the matches are related. -/
theorem Trims.hasTrimmed (drops : DropsLast setup node rest)
    (trims : Trims setup node rest outer outer') (h : setup.run outer = .ok found) :
  HasTrimmed setup node rest outer' found
  := by
  induction trims generalizing found with
  | node => apply drops.hasTrimmed h
  | entry linked held plain trims ih =>
      apply HasTrimmed.entry linked held plain trims.target_below ih h
  | @value frame context entries entries' entered shape trims ih =>
      have chosen : EntryValue.task? (context.shape (.object entries))
          = some (.production .nodeObject) := by
        rw [Context.shape, shape]
        rfl
      have chosen' : EntryValue.task? (context.shape (.object entries'))
          = some (.production .nodeObject) := by
        rw [Context.shape, trims.objectShape_eq drops entered, shape]
        rfl
      obtain ⟨item, hitem, rfl⟩ := (Leads.entryValue entered chosen).run_eq_ok.mp h
      rw [← (trims.keywords_eq drops entered).1] at entered
      apply (ih hitem).lead keeps_id (.entryValue entered chosen') keeps_id trims.target_below
  | @document frame context entries entries' entered bare trims ih =>
      obtain ⟨item, hitem, rfl⟩ := (Leads.document entered bare).run_eq_ok.mp h
      obtain ⟨hlookup, hkeywords⟩ := trims.keywords_eq drops entered
      have bare' : context.entryFor? entries' .graph = none := by
        rw [← Option.not_isSome_iff_eq_none, hkeywords, bare]
        simp
      rw [← hlookup] at entered
      apply (ih hitem).lead keeps_id (.document entered bare') keeps_id trims.target_below
  | documents trims ih =>
      obtain ⟨item, hitem, rfl⟩ := Leads.documents.run_eq_ok.mp h
      apply (ih hitem).lead keeps_id .documents keeps_id trims.target_below
  | nodeObjects trims ih =>
      apply HasTrimmed.nodeObjects (trims.kind_eq drops) trims.target_below ih h
  | graph entered first held chosen trims ih =>
      apply HasTrimmed.graph entered first held chosen (trims.kind_eq drops) trims.target_below ih h

/-! ### Queries -/

/-- When a document has a query, so has the document in which a node object lacks its last entry,
an optional one, and the entry adds a left join to the pattern of the node.  A row of the trimmed
document is extended by one of the whole, except where the rest of the node matches without values:
there, if the entry matches at all, it has to match compatibly with the row. -/
theorem rows_kept_iff (setup : Setup) (document trimmed : Json) (node rest : Visit) (query : Query)
    (drops : DropsLast setup node rest)
    (trims : Trims setup node rest (setup.documentVisit document) (setup.documentVisit trimmed))
    (h : setup.grammar.query document = .ok query) :
  ∃ query' whole part fragment, setup.grammar.query trimmed = .ok query' ∧
    setup.run node = .ok whole ∧ setup.run rest = .ok part ∧
    whole.pattern = .leftJoin part.pattern fragment ∧
    ∀ dataset, ∀ μ ∈ query'.body.over dataset,
      (∃ ν ∈ query.body.over dataset, Extends ν μ)
        ↔ (Solution.empty ∈ part.pattern.over dataset → (∃ φ, φ ∈ fragment.over dataset) →
          ∃ φ ∈ fragment.over dataset, Compatible φ μ)
  := by
  obtain ⟨found, log, derived, rfl⟩ := query_eq_ok.mp h
  obtain ⟨whole, part, child, fragment, found', hnode, hrest, attaches, hfound', trimmed⟩ :=
    trims.hasTrimmed drops derived.run
  obtain ⟨log', derived'⟩ := exists_derives _ _ hfound'
  refine ⟨found'.query, whole, part, fragment, query_eq_ok.mpr ⟨found', log', derived', rfl⟩,
    hnode, hrest, attaches.pattern_eq, ?_⟩
  intro dataset μ hμ
  have haround := trimmed.around dataset dataset.default
  rw [attaches.pattern_eq] at haround
  apply haround.exists_extends_iff
  · intro v hv
    apply attaches.settled v hv dataset dataset.default
  · intro φ hφ ρ hρ v hv hv'
    rcases attaches.covered v (Pattern.mem_vars_of_binds hφ hv) with hname | hbelow
    · apply hname
    · apply absurd hbelow
      apply trimmed.fresh v
      apply Match.mem_vars.mpr
      exact .inr (.inr (.inl (Pattern.mem_vars_of_binds hρ hv')))
  · apply hμ

/-! ### Planets -/

/-- A resource with a homeworld, of which some entries are given. -/
def homeworld (entries : List (String × Json)) : Json :=
  .object [("ex:homeworld", .object entries)]

/-- The visit to the homeworld. -/
def planetVisit (entries : List (String × Json)) : Visit :=
  ⟨.production .nodeObject, .object entries, ⟨⟨"root·homeworld"⟩, {}, none⟩⟩

/-- The name of a planet. -/
def planetName : String × Json := ("ex:name", .string "?")

/-- All films that a planet is in. -/
def films : String × Json := ("ex:films", .array [.string "?"])

/-- The films are the last entry of a planet, and optional. -/
theorem dropsLast_films (before : List (String × Json))
    (bare : (before ++ [films]).lookup Keyword.context.text = none)
    (held : (NodeObject.roles {} {} ⟨"root·homeworld"⟩ false {}
      (before.map Prod.fst ++ ["ex:films"]))[before.length]?
        = some (.property "ex:films" false ⟨"root·homeworld·films"⟩)) :
  DropsLast {} (planetVisit (before ++ [films])) (planetVisit before)
  := by
  have linked : LinkedAt {} ⟨⟨"root·homeworld"⟩, {}, none⟩ {} before
      ⟨.property "ex:films" false ⟨"root·homeworld·films"⟩, "ex:films", .array [.string "?"]⟩ []
      ⟨"ex:films", false, ⟨"root·homeworld·films"⟩, {}⟩ {} :=
    NodeObject.linkedAt_undefined bare held (by decide +kernel)
  apply DropsLast.entry linked (by decide) rfl

/-- The homeworld is reached from the root. -/
theorem trims_homeworld {entries entries' : List (String × Json)}
    (bare : entries.lookup Keyword.context.text = none)
    (shape : ({} : Context).objectShape entries = .nodeObject) :
  Trims {} (planetVisit entries) (planetVisit entries')
    (Setup.documentVisit {} (homeworld entries)) (Setup.documentVisit {} (homeworld entries'))
  := by
  have linked : LinkedAt {} ⟨⟨"root"⟩, {}, none⟩ {} []
      ⟨.property "ex:homeworld" false ⟨"root·homeworld"⟩, "ex:homeworld", .object entries⟩ []
      ⟨"ex:homeworld", false, ⟨"root·homeworld"⟩, {}⟩ {} :=
    NodeObject.linkedAt_undefined rfl (by decide +kernel) (by decide +kernel)
  have entered : Setup.enter {} {} (entries.lookup Keyword.context.text) = .ok {} := by
    rw [bare]
    rfl
  have hgraph : ({} : Context).entryFor? [("ex:homeworld", Json.object entries)] .graph = none := by
    have hmeaning : ({} : Context).meaning "ex:homeworld" ≠ .keyword .graph := by decide +kernel
    simp [Context.entryFor?, hmeaning]
  apply Trims.document rfl hgraph
  apply Trims.entry linked rfl rfl
  apply Trims.value entered shape .node

/-- The pattern of the homeworld. -/
def homeworldPattern : Pattern :=
  .basic [⟨.var ⟨"root"⟩, .iri "ex:homeworld", .var ⟨"root·homeworld"⟩⟩]

/-- The pattern of the films. -/
def filmsPattern : Pattern :=
  .basic [⟨.var ⟨"root·homeworld"⟩, .iri "ex:films", .var ⟨"root·homeworld·films"⟩⟩]

/-- A planet that is the homeworld of someone and is in no film. -/
def tatooine : Statement := ⟨.iri "ex:luke", "ex:homeworld", .iri "ex:tatooine"⟩

/-- A planet in a film. -/
def hoth : Statement := ⟨.iri "ex:hoth", "ex:films", .iri "ex:empire"⟩

/-- A dataset with both planets. -/
def galaxy : Dataset where
  default := {tatooine, hoth}

/-- The films are those of the other planet. -/
theorem mem_films {φ : Solution} :
  φ ∈ filmsPattern.over galaxy ↔ φ = hoth.row ⟨"root·homeworld"⟩ ⟨"root·homeworld·films"⟩
  := by
  rw [filmsPattern, Pattern.over, Pattern.mem_solutions_triple _ _ (by decide)]
  constructor
  · rintro ⟨statement, hstatement, hpredicate, rfl⟩
    rw [galaxy, Finset.mem_insert, Finset.mem_singleton] at hstatement
    rcases hstatement with rfl | rfl
    · exact absurd hpredicate (by decide)
    · rfl
  · rintro rfl
    exact ⟨hoth, by simp [galaxy], rfl, rfl⟩

/-- The row of a homeworld is lost when its films are asked for: nothing else is asked of the
planet, so only planets in films are found. -/
theorem rows_lost_films :
  DropsLast {} (planetVisit [films]) (planetVisit []) ∧
    Trims {} (planetVisit [films]) (planetVisit [])
      (Setup.documentVisit {} (homeworld [films])) (Setup.documentVisit {} (homeworld [])) ∧
    ∃ query query', ({} : Setup).grammar.query (homeworld [films]) = .ok query ∧
      ({} : Setup).grammar.query (homeworld []) = .ok query' ∧
      ∃ μ ∈ query'.body.over galaxy, ∀ ν ∈ query.body.over galaxy, ¬ Extends ν μ
  := by
  refine ⟨dropsLast_films [] rfl (by decide +kernel), trims_homeworld rfl (by decide +kernel), ?_⟩
  have houtcome : (({} : Setup).grammar.query (homeworld [films])).toOption.map Query.body
      = some (.join homeworldPattern (.leftJoin .empty filmsPattern)) := by decide +kernel
  have houtcome' : (({} : Setup).grammar.query (homeworld [])).toOption.map Query.body
      = some homeworldPattern := by decide +kernel
  obtain ⟨query, h, hbody⟩ := exists_of_outcome _ _ houtcome
  obtain ⟨query', h', hbody'⟩ := exists_of_outcome _ _ houtcome'
  refine ⟨query, query', h, h', tatooine.row ⟨"root"⟩ ⟨"root·homeworld"⟩, ?_, ?_⟩
  · rw [hbody', homeworldPattern, Pattern.over, Pattern.mem_solutions_triple _ _ (by decide)]
    exact ⟨tatooine, by simp [galaxy], rfl, rfl⟩
  · intro ν hν hextends
    rw [hbody] at hν
    obtain ⟨-, φ, hφ, hextends'⟩ := exists_extends_of_mem_join hν
    have hfilms : φ ∈ filmsPattern.over galaxy := by
      rcases mem_optional.mp hφ with hφ | ⟨hφ, hnone⟩
      · rw [Pattern.solutions_empty, unit_join] at hφ
        apply hφ
      · -- The planet in a film is compatible with the solution without values.
        obtain rfl : φ = Solution.empty := Multiset.mem_singleton.mp hφ
        apply absurd (compatible_empty _).symm (hnone _ (mem_films.mpr rfl))
    rw [mem_films.mp hfilms] at hextends'
    have hplanet := hextends ⟨"root·homeworld"⟩ (.iri "ex:tatooine") rfl
    rw [hextends' ⟨"root·homeworld"⟩ (.iri "ex:hoth") rfl] at hplanet
    revert hplanet
    decide

/-- A planet of which the name is asked for as well. -/
theorem rows_kept_iff_named :
  DropsLast {} (planetVisit [planetName, films]) (planetVisit [planetName]) ∧
    Trims {} (planetVisit [planetName, films]) (planetVisit [planetName])
      (Setup.documentVisit {} (homeworld [planetName, films]))
      (Setup.documentVisit {} (homeworld [planetName])) ∧
    ∃ query, ({} : Setup).grammar.query (homeworld [planetName, films]) = .ok query ∧
      ∃ query' whole part fragment,
        ({} : Setup).grammar.query (homeworld [planetName]) = .ok query' ∧
        Setup.run {} (planetVisit [planetName, films]) = .ok whole ∧
        Setup.run {} (planetVisit [planetName]) = .ok part ∧
        whole.pattern = .leftJoin part.pattern fragment ∧
        ∀ dataset, ∀ μ ∈ query'.body.over dataset,
          (∃ ν ∈ query.body.over dataset, Extends ν μ)
            ↔ (Solution.empty ∈ part.pattern.over dataset →
              (∃ φ, φ ∈ fragment.over dataset) → ∃ φ ∈ fragment.over dataset, Compatible φ μ)
  := by
  have drops : DropsLast {} (planetVisit [planetName, films]) (planetVisit [planetName]) :=
    dropsLast_films [planetName] rfl (by decide +kernel)
  have trims : Trims {} (planetVisit [planetName, films]) (planetVisit [planetName])
      (Setup.documentVisit {} (homeworld [planetName, films]))
      (Setup.documentVisit {} (homeworld [planetName])) := trims_homeworld rfl (by decide +kernel)
  have houtcome : (({} : Setup).grammar.query (homeworld [planetName, films])).toOption.map
      Query.projections = some [⟨"root·homeworld·name"⟩, ⟨"root·homeworld·films"⟩] := by
    decide +kernel
  obtain ⟨query, h, -⟩ := exists_of_outcome _ _ houtcome
  use drops, trims, query, h
  apply rows_kept_iff {} _ _ _ _ query drops trims h

end LinkedQuery
