import LinkedQuery.Proofs.Reading.Log

/-!
# Forms of documents

A document with one node object may be the object alone, or hold it in an array, in a top-level
graph, or in an array in a top-level graph.  All of them ask for the same (`query_forms`).
-/

namespace LinkedQuery

/-- How a document holds its node object. -/
inductive Form where
  | alone
  | inArray
  | inGraph
  | inGraphArray
deriving DecidableEq, Repr

namespace Form

/-- The document of a form. -/
def document (node : Json) : Form → Json
  | alone => node
  | inArray => .array [node]
  | inGraph => .object [(Keyword.graph.text, node)]
  | inGraphArray => .object [(Keyword.graph.text, .array [node])]

/-- Whether the node object is the item of an array. -/
def isArray : Form → Bool
  | inArray | inGraphArray => true
  | alone | inGraph => false

/-- The template of a form around that of its node object. -/
def template (root : Variable) (node : Template) : Form → Template
  | alone => node
  | inArray => .array root node
  | inGraph => .object [(Keyword.graph.text, node)]
  | inGraphArray => .object [(Keyword.graph.text, .array root node)]

/-- The path from the document to its node object. -/
def path : Form → List Step
  | alone => []
  | inArray => [.index 0]
  | inGraph => [.key Keyword.graph.text]
  | inGraphArray => [.key Keyword.graph.text, .index 0]

/-- The match of the document, of which the node object has a match. -/
def matchOf (root : Variable) (node : Match) (form : Form) : Match :=
  { node with
    template := form.template root node.template
    projections := if form.isArray then itemProjections root node else node.projections
    warnings := node.warnings.map fun warning =>
      { warning with path := form.path ++ warning.path } }

end Form

section Runs

variable (setup : Setup)

/-- Without an entry for a graph, a document is a node object. -/
theorem run_document_node {entries : List (String × Json)} {frame : Frame}
    (bare : ∀ context, setup.enter frame.context (entries.lookup Keyword.context.text)
        = .ok context →
      ∀ key ∈ entries.map Prod.fst, context.meaning key ≠ .keyword .graph) :
  setup.run ⟨.production .document, .object entries, frame⟩
    = setup.run ⟨.production .nodeObject, .object entries, frame⟩
  := by
  rw [run_document_object]
  cases entered : setup.enter frame.context (entries.lookup Keyword.context.text) with
  | error fault =>
      rw [NodeObject.run_nodeObject, entered]
      rfl
  | ok context =>
      have hgraph : context.entryFor? entries .graph = none := by
        apply List.find?_eq_none.mpr
        intro entry hentry
        simpa using bare context entered entry.1 (List.mem_map_of_mem hentry)
      rw [ok_bind, hgraph]
      rfl

/-- An object that holds nothing but a graph is read like the graph. -/
theorem run_document_graph_only (graph : Json) (root : Variable) {production : Production}
    (h : TopLevelGraph.production? graph = some production) :
  setup.run ⟨.production .document, .object [(Keyword.graph.text, graph)], ⟨root, {}, none⟩⟩
    = (do
        let contents ← setup.run ⟨.production production, graph, ⟨root, {}, none⟩⟩
        .ok (TopLevelGraph.matchOf [(Keyword.graph.text, graph)] Keyword.graph.text contents))
  := by
  rw [run_document_graph setup rfl (({} : Context).entryFor?_text .graph .graph graph)]
  simp only [h]

/-- An array with one object is read like the object. -/
theorem run_nodeObjects_singleton (entries : List (String × Json)) (frame : Frame) :
  setup.run ⟨.production .nodeObjects, .array [.object entries], frame⟩
    = (do
        let node ← setup.run ⟨.production .nodeObject, .object entries, frame⟩
        .ok (itemsMatch frame.target node))
  := rfl

/-- Each form of a document is read like its node object. -/
theorem run_form {entries : List (String × Json)} {root : Variable}
    (bare : ∀ context, setup.enter {} (entries.lookup Keyword.context.text) = .ok context →
      ∀ key ∈ entries.map Prod.fst, context.meaning key ≠ .keyword .graph) (form : Form) :
  setup.run ⟨.production .document, form.document (.object entries), ⟨root, {}, none⟩⟩
    = (do
        let node ← setup.run ⟨.production .nodeObject, .object entries, ⟨root, {}, none⟩⟩
        .ok (form.matchOf root node))
  := by
  cases form with
  | alone =>
      rw [Form.document, run_document_node setup bare]
      cases setup.run ⟨.production .nodeObject, .object entries, ⟨root, {}, none⟩⟩ with
      | error fault => rfl
      | ok node => simp [Form.matchOf, Form.template, Form.isArray, Form.path]
  | inArray =>
      rw [Form.document, run_document_array, run_nodeObjects_singleton]
      rfl
  | inGraph =>
      rw [Form.document, run_document_graph_only setup _ _ rfl]
      cases setup.run ⟨.production .nodeObject, .object entries, ⟨root, {}, none⟩⟩ with
      | error fault => rfl
      | ok node =>
          simp [Form.matchOf, Form.template, Form.isArray, Form.path, TopLevelGraph.matchOf,
            Template.around, nestAll, Warning.nest]
  | inGraphArray =>
      rw [Form.document, run_document_graph_only setup _ _ rfl, run_nodeObjects_singleton]
      cases setup.run ⟨.production .nodeObject, .object entries, ⟨root, {}, none⟩⟩ with
      | error fault => rfl
      | ok node =>
          simp [Form.matchOf, Form.template, Form.isArray, Form.path, TopLevelGraph.matchOf,
            Template.around, itemsMatch, nestAll, Warning.nest, Function.comp_def]

end Runs

/-- An array of items selects its variable before all others, if that is what the items stand
for. -/
theorem distinct_itemProjections (root : Variable) (node : Match) :
  distinct (itemProjections root node)
    = if node.term = .var root then root :: (distinct node.projections).filter (· ≠ root)
      else distinct node.projections
  := by
  rw [itemProjections]
  split
  · rw [distinct, List.eraseDups_cons, eraseDups_filter, distinct]
    congr 2
    funext v
    rw [Bool.eq_iff_iff]
    simp
  · rfl

/-- The forms of a document with one node object, none of whose keys stands for a graph in its
context, all fail, and then with the same fault, or all make queries.  These have the same pattern;
the templates and the warnings have the way to the node object in front, and an array selects
the root before all others if the node object stands for it. -/
theorem query_forms (setup : Setup) {entries : List (String × Json)}
    (bare : ∀ context, setup.enter {} (entries.lookup Keyword.context.text) = .ok context →
      ∀ key ∈ entries.map Prod.fst, context.meaning key ≠ .keyword .graph) :
  (∃ fault, ∀ form : Form,
      setup.grammar.query (form.document (.object entries)) = .error fault)
    ∨ ∃ found, setup.run (setup.documentVisit (.object entries)) = .ok found
      ∧ ∀ form : Form, ∃ query,
        setup.grammar.query (form.document (.object entries)) = .ok query
        ∧ query.body = found.pattern
        ∧ query.projections
          = (if form.isArray ∧ found.term = .var setup.naming.rootVariable then
              setup.naming.rootVariable
                :: (distinct found.projections).filter (· ≠ setup.naming.rootVariable)
            else distinct found.projections)
        ∧ query.template = form.template setup.naming.rootVariable found.template
        ∧ query.warnings = found.warnings.map fun warning =>
            { warning with path := form.path ++ warning.path }
  := by
  have hquery (form : Form) : setup.grammar.query (form.document (.object entries))
      = (do
          let node ← setup.run ⟨.production .nodeObject, .object entries,
            ⟨setup.naming.rootVariable, {}, none⟩⟩
          .ok (form.matchOf setup.naming.rootVariable node).query) := by
    rw [query_eq, Setup.documentVisit, run_form setup bare form, bind_assoc]
    rfl
  rw [Setup.documentVisit, run_document_node setup bare]
  cases hnode : setup.run ⟨.production .nodeObject, .object entries,
      ⟨setup.naming.rootVariable, {}, none⟩⟩ with
  | error fault =>
      left
      use fault
      intro form
      rw [hquery, hnode]
      rfl
  | ok node =>
      right
      use node, rfl
      intro form
      rw [hquery, hnode, ok_bind]
      refine ⟨_, rfl, rfl, ?_, rfl, rfl⟩
      change distinct (form.matchOf _ node).projections = _
      cases harray : form.isArray with
      | true => simp [Form.matchOf, harray, distinct_itemProjections]
      | false => simp [Form.matchOf, harray]

/-- A document about somebody, whose name is asked for and whose age is nothing. -/
def somebody : List (String × Json) :=
  [("@context", .object [("name", .string "ex:name")]), ("name", .string "?"), ("age", .null)]

/-- Somebody alone and in an array in a graph: the second selects the root before the name, and
its warning about the age tells the whole way to the age. -/
theorem query_forms_somebody :
  ∃ query query',
    ({} : Setup).grammar.query (Form.alone.document (.object somebody)) = .ok query
    ∧ ({} : Setup).grammar.query (Form.inGraphArray.document (.object somebody)) = .ok query'
    ∧ query'.body = query.body
    ∧ query.projections = [⟨"root·name"⟩] ∧ query'.projections = [⟨"root"⟩, ⟨"root·name"⟩]
    ∧ query.warnings = [⟨.unmappedKey, [.key "age"]⟩]
    ∧ query'.warnings = [⟨.unmappedKey, [.key "@graph", .index 0, .key "age"]⟩]
  := by
  have hcontext : (({} : Setup).enter {} (somebody.lookup Keyword.context.text)).toOption.map
      (fun context => (somebody.map Prod.fst).all fun key =>
        decide (context.meaning key ≠ .keyword .graph)) = some true := by
    decide +kernel
  have houtcome : (({} : Setup).run (({} : Setup).documentVisit (.object somebody))).toOption.map
      (fun found => (found.term, found.projections, found.warnings))
        = some (.var ⟨"root"⟩, [⟨"root·name"⟩], [⟨.unmappedKey, [.key "age"]⟩]) := by
    decide +kernel
  obtain ⟨context, entered, hkeys⟩ := exists_of_outcome _ _ hcontext
  obtain ⟨found, hrun, hfound⟩ := exists_of_outcome _ _ houtcome
  obtain ⟨hterm, hprojections, hwarnings⟩ : found.term = .var ⟨"root"⟩
      ∧ found.projections = [⟨"root·name"⟩]
      ∧ found.warnings = [⟨.unmappedKey, [.key "age"]⟩] := by
    simpa using hfound
  have bare : ∀ context', ({} : Setup).enter {} (somebody.lookup Keyword.context.text)
        = .ok context' →
      ∀ key ∈ somebody.map Prod.fst, context'.meaning key ≠ .keyword .graph := by
    intro context' entered'
    obtain rfl := Except.ok.inj (entered.symm.trans entered')
    simpa using hkeys
  obtain ⟨fault, fails⟩ | ⟨found', hrun', makes⟩ := query_forms {} bare
  · have hfault := fails .alone
    rw [Form.document, query_eq, hrun] at hfault
    cases hfault
  · obtain rfl := Except.ok.inj (hrun.symm.trans hrun')
    obtain ⟨query, hquery, hbody, hselected, -, hwarned⟩ := makes .alone
    obtain ⟨query', hquery', hbody', hselected', -, hwarned'⟩ := makes .inGraphArray
    use query, query', hquery, hquery', hbody'.trans hbody.symm
    rw [hselected, hselected', hwarned, hwarned', hterm, hprojections, hwarnings]
    decide

end LinkedQuery
