import LinkedQuery.Proofs.Reading.Rows
import Mathlib.Tactic.SplitIfs

/-!
# The productions, visit by visit

For each task, what `Setup.run` does with a value: the visits that it makes to parts of the value
or to the value itself, and the match that it makes of theirs.  The match of an object is given as
a function of its entries and of the match of the entry that is read.
-/

namespace LinkedQuery

/-- The template of an object of which the entry under a key has a template. -/
def Template.around (entries : List (String × Json)) (key : String) (template : Template) :
    Template :=
  .object (entries.map fun entry => (entry.1, if entry.1 = key then template else .value entry.2))

theorem Parts.templateWith_object (setup : Setup) (entries : List (String × Json)) (key : String)
    (template : Template) :
  (setup.grammar.element (.object entries)).parts.templateWith key template
    = .around entries key template
  := by
  simp [Parts.templateWith, Template.around, Function.comp_def]

/-! ### Matches of objects -/

/-- The match of an object around a top-level graph. -/
def TopLevelGraph.matchOf (entries : List (String × Json)) (graphKey : String)
    (contents : Match) : Match :=
  { contents with
    template := .around entries graphKey contents.template
    warnings := entries.flatMap fun entry =>
      if entry.1 = graphKey then nestAll (.key entry.1) contents.warnings
      else otherWarnings entry.1 }

/-- How the value of a top-level graph is read. -/
def TopLevelGraph.production? : Json → Option Production
  | .array _ => some .nodeObjects
  | .object _ => some .nodeObject
  | _ => none

/-- The match of a list object. -/
def ListObject.matchOf (entries : List (String × Json)) (key : String) (list : Match) : Match :=
  { list with
    template := .around entries key list.template
    warnings := nestAll (.key key) list.warnings }

namespace GraphObject

/-- What a graph object is called. -/
def identityOf (context : Context) (entries : List (String × Json)) : Option Identity :=
  (context.entryFor? entries .id).map fun entry => context.identity entry.2

/-- The share of an entry of a graph object. -/
def shareOf (context : Context) (target : Variable) (entries : List (String × Json))
    (graphKey : String) (members : Match) (key : String) (value : Json) : Share :=
  if key = graphKey then
    { template := members.template, warnings := nestAll (.key key) members.warnings }
  else if (context.entryFor? entries .id).any (·.1 == key) then
    idShare target (identityOf context entries) key value
  else otherShare context key value

/-- The match of a graph object. -/
def matchOf (context : Context) (target : Variable) (entries : List (String × Json))
    (graphKey : String) (members : Match) : Match :=
  let identity := identityOf context entries
  let name := Identity.name identity target
  let share (entry : String × Json) : Share :=
    shareOf context target entries graphKey members entry.1 entry.2
  { term := name.term
    template := .object (entries.map fun entry => (entry.1, (share entry).template))
    pattern := .graph name members.pattern
    projections :=
      (if identity = some .placeholder then [target] else []) ++ members.projections
    warnings := entries.flatMap fun entry => (share entry).warnings }

/-- The match of members that are no node objects. -/
def refusal (member : Variable) (members : Json) : Match where
  term := .var member
  template := .value members
  warnings := [⟨.notNodeObjects, []⟩]

end GraphObject

namespace ValueObject

/-- The datatype that the entries of a value object name, and the warnings about it. -/
def datatypeIn (context : Context) (entries : List (String × Json)) :
    Option String × List Warning :=
  match context.entryFor? entries .type with
  | some (key, type) => datatypeOf context key type
  | none => (none, [])

/-- The language that the entries of a value object name, with its key. -/
def languageIn (context : Context) (entries : List (String × Json)) : Option (String × String) :=
  (context.entryFor? entries .language).bind fun entry =>
    entry.2.string?.map fun tag => (entry.1, tag)

/-- The term of a value object that holds no placeholder, and the warnings about it. -/
def constantOf (context : Context) (target : Variable) (entries : List (String × Json))
    (key : String) (value : Json) : Term × List Warning :=
  match value.scalar? with
  | some scalar =>
    let (literal, warnings) :=
      literalOf scalar (languageIn context entries) (datatypeIn context entries).1
    (.literal literal, warnings)
  | none => (.var target, [Warning.atKey .notScalar key])

/-- The match of a value object with a value under a key. -/
def matchOf (context : Context) (target : Variable) (entries : List (String × Json))
    (key : String) (value : Json) : Match :=
  if value.isPlaceholder then
    { term := .var target
      template := .around entries key (.native target)
      projections := [target]
      warnings :=
        if (context.entryFor? entries .type).isSome || (context.entryFor? entries .language).isSome
        then [⟨.qualifiedPlaceholder, []⟩] else [] }
  else
    { term := (constantOf context target entries key value).1
      template := .around entries key (.value value)
      warnings :=
        (datatypeIn context entries).2 ++ (constantOf context target entries key value).2 }

end ValueObject

/-- The match of a scalar that is no placeholder. -/
def Scalar.matchOf (scalar : Scalar) (value : Json) (frame : Frame) : Match where
  term := (scalar.constant frame.context frame.coercion).1
  template := .value value
  warnings := (scalar.constant frame.context frame.coercion).2

@[simp]
theorem Scalar.scalar?_json (scalar : Scalar) :
  scalar.json.scalar? = some scalar
  := by
  cases scalar <;> rfl

theorem Scalar.isPlaceholder_json (scalar : Scalar) (given : scalar ≠ .string placeholder) :
  scalar.json.isPlaceholder = false
  := by
  cases scalar with
  | string text => simpa [json, Json.isPlaceholder] using given
  | _ => rfl

/-- The match of the placeholder. -/
def placeholderMatch (target : Variable) : Match where
  term := .var target
  template := .native target
  projections := [target]

/-- The match of an array whose items are matched like one of them. -/
def itemsMatch (target : Variable) (item : Match) : Match :=
  { item with
    template := .array target item.template
    projections := itemProjections target item
    warnings := nestAll (.index 0) item.warnings }

/-- The match of an array without items, with the term that it stands for. -/
def emptyMatch (term : Term) : Match where
  term := term
  template := .value (.array [])

/-- How an entry value of a shape is read; null is not. -/
def EntryValue.task? : Shape → Option Task
  | .null => none
  | .scalar => some (.production .scalar)
  | .graphObject => some (.production .graphObject)
  | .valueObject => some (.production .valueObject)
  | .listObject => some (.production .listObject)
  | .setObject => some (.production .setObject)
  | .nodeObject => some (.production .nodeObject)
  | .array => some (.items .entryValue)

/-- Objects have the shapes of objects. -/
theorem Context.shape_object (context : Context) (entries : List (String × Json)) :
  context.shape (.object entries) = .graphObject
    ∨ context.shape (.object entries) = .valueObject
    ∨ context.shape (.object entries) = .listObject
    ∨ context.shape (.object entries) = .setObject
    ∨ context.shape (.object entries) = .nodeObject
  := by
  simp only [Context.shape, Context.objectShape]
  split_ifs
  all_goals simp

theorem Context.shape_object_ne (context : Context) (entries : List (String × Json)) :
  context.shape (.object entries) ≠ .null ∧ context.shape (.object entries) ≠ .array
  := by
  rcases context.shape_object entries with h | h | h | h | h
  all_goals simp [h]

/-- Only null has no task as an entry value. -/
theorem EntryValue.eq_null_of_task? {context : Context} {value : Json}
    (h : task? (context.shape value) = none) :
  value = .null
  := by
  cases value with
  | null => rfl
  | object entries =>
      rcases context.shape_object entries with hshape | hshape | hshape | hshape | hshape
      all_goals
        rw [hshape] at h
        cases h
  | _ => cases h

/-! ### Documents and arrays -/

section Runs

variable (setup : Setup)

theorem run_document_object (entries : List (String × Json)) (frame : Frame) :
  setup.run ⟨.production .document, .object entries, frame⟩
    = (do
        let context ← setup.enter frame.context (entries.lookup Keyword.context.text)
        if (context.entryFor? entries .graph).isSome then
          setup.run ⟨.production .topLevelGraph, .object entries, frame⟩
        else setup.run ⟨.production .nodeObject, .object entries, frame⟩)
  := by
  simp only [Setup.run]
  rw [Setup.read_element]
  simp only [Grammar.readings, Setup.choose_grammar, Document.read, Setup.value_parts,
    Parts.localContext?_object, Setup.entries_object, Context.entryFor?_map, Option.isSome_map]
  rfl

theorem run_document_array (items : List Json) (frame : Frame) :
  setup.run ⟨.production .document, .array items, frame⟩
    = setup.run ⟨.production .nodeObjects, .array items, frame⟩
  := rfl

theorem run_nodeObjects (items : List Json) (frame : Frame) :
  setup.run ⟨.production .nodeObjects, .array items, frame⟩
    = match items.find? fun item => !item.isObject with
      | some item => .error (.notNodeObject item.kind)
      | none => setup.run ⟨.items .nodeObject, .array items, frame⟩
  := rfl

theorem run_items_nil (production : Production) (frame : Frame) :
  setup.run ⟨.items production, .array [], frame⟩ = .ok (emptyMatch (.var frame.target))
  := rfl

theorem run_items_cons (production : Production) (first : Json) (rest : List Json)
    (frame : Frame) :
  setup.run ⟨.items production, .array (first :: rest), frame⟩
    = (do
        let item ← setup.run ⟨.production production, first, frame⟩
        .ok (itemsMatch frame.target item))
  := rfl

theorem run_topLevelGraph (entries : List (String × Json)) (frame : Frame) :
  setup.run ⟨.production .topLevelGraph, .object entries, frame⟩
    = (do
        let context ← setup.enter frame.context (entries.lookup Keyword.context.text)
        match context.entryFor? entries .graph with
        | none => .error (.unexpected .topLevelGraph .object)
        | some (graphKey, graph) =>
          match TopLevelGraph.production? graph with
          | none => .error (.notGraph graph.kind)
          | some production => do
            let contents ← setup.run ⟨.production production, graph, ⟨frame.target, context, none⟩⟩
            .ok (TopLevelGraph.matchOf entries graphKey contents))
  := by
  simp only [Setup.run]
  rw [Setup.read_direct setup _ _ _ (by decide) (by decide)]
  simp only [Grammar.directReadings, Setup.choose_grammar, TopLevelGraph.read,
    Parts.localContext?_object, Setup.entries_object, Context.entryFor?_map]
  congr 1
  funext context
  cases context.entryFor? entries .graph with
  | none => rfl
  | some found =>
      obtain ⟨graphKey, graph⟩ := found
      have hsurround (contents : Match) :
          TopLevelGraph.surround (setup.grammar.element (.object entries)).parts graphKey contents
            = TopLevelGraph.matchOf entries graphKey contents := by
        simp [TopLevelGraph.surround, TopLevelGraph.matchOf, Parts.templateWith_object,
          List.flatMap_map]
      simp only [Option.map_some, Setup.value_element, hsurround]
      cases graph
      all_goals rfl

/-- An object with a graph is read as a top-level graph. -/
theorem run_document_graph {entries : List (String × Json)} {frame : Frame} {context : Context}
    {graph : String × Json}
    (entered : setup.enter frame.context (entries.lookup Keyword.context.text) = .ok context)
    (held : context.entryFor? entries .graph = some graph) :
  setup.run ⟨.production .document, .object entries, frame⟩
    = match TopLevelGraph.production? graph.2 with
      | none => .error (.notGraph graph.2.kind)
      | some production =>
        setup.run ⟨.production production, graph.2, ⟨frame.target, context, none⟩⟩
          >>= fun contents => .ok (TopLevelGraph.matchOf entries graph.1 contents)
  := by
  cases chosen : TopLevelGraph.production? graph.2 with
  | none =>
      simp only [run_document_object, run_topLevelGraph, entered, held, chosen, ok_bind,
        Option.isSome_some, if_true]
  | some production =>
      simp only [run_document_object, run_topLevelGraph, entered, held, chosen, ok_bind,
        Option.isSome_some, if_true]

/-! ### Entry values and constants -/

theorem run_entryValue (value : Json) (frame : Frame) :
  setup.run ⟨.production .entryValue, value, frame⟩
    = (do
        let context ← setup.enter frame.context (value.entry? Keyword.context.text)
        match EntryValue.task? (context.shape value) with
        | none => .ok (nullMatch frame.target)
        | some task => setup.run ⟨task, value, frame⟩)
  := by
  simp only [Setup.run]
  rw [Setup.read_element]
  simp only [Grammar.readings, Setup.choose_grammar, EntryValue.read, Setup.value_parts,
    Parts.localContext?]
  congr 1
  funext context
  cases value with
  | object entries =>
      rcases context.shape_object entries with h | h | h | h | h
      all_goals
        rw [h]
        rfl
  | _ => rfl

theorem run_setObject (value : Json) (frame : Frame) :
  setup.run ⟨.production .setObject, value, frame⟩
    = .ok { term := .var frame.target, template := .value value, warnings := [⟨.setObject, []⟩] }
  := by
  simp only [Setup.run]
  rw [Setup.read_direct setup _ _ _ (by decide) (by decide)]
  simp [Grammar.directReadings, SetObject.read]

theorem run_scalar (value : Json) (frame : Frame) :
  setup.run ⟨.production .scalar, value, frame⟩
    = if value.isPlaceholder then .ok (placeholderMatch frame.target)
      else
        match value.scalar? with
        | some scalar => .ok (scalar.matchOf value frame)
        | none => .error (.unexpected .scalar value.kind)
  := by
  simp only [Setup.run]
  rw [Setup.read_direct setup _ _ _ (by decide) (by decide)]
  simp only [Grammar.directReadings, Setup.choose_grammar, Scalar.read, Setup.value_parts,
    Parts.unexpected]
  rfl

/-- A constant is read under the coercion of its frame. -/
theorem run_scalar_json {scalar : Scalar} (given : scalar ≠ .string placeholder) (frame : Frame) :
  setup.run ⟨.production .scalar, scalar.json, frame⟩ = .ok (scalar.matchOf scalar.json frame)
  := by
  simp [run_scalar, scalar.isPlaceholder_json given, scalar.scalar?_json]

theorem run_valueObject (entries : List (String × Json)) (frame : Frame) :
  setup.run ⟨.production .valueObject, .object entries, frame⟩
    = (do
        let context ← setup.enter frame.context (entries.lookup Keyword.context.text)
        match context.entryFor? entries .value with
        | none => .error (.unexpected .valueObject .object)
        | some (key, value) =>
          .ok (ValueObject.matchOf context frame.target entries key value))
  := by
  simp only [Setup.run]
  rw [Setup.read_direct setup _ _ _ (by decide) (by decide)]
  simp only [Grammar.directReadings, Setup.choose_grammar, ValueObject.read,
    Parts.localContext?_object, Setup.entries_object, Context.entryFor?_map]
  congr 1
  funext context
  cases context.entryFor? entries .value with
  | none => rfl
  | some found =>
      simp only [Option.map_some, Setup.value_element, Option.isSome_map,
        Parts.templateWith_object, ValueObject.matchOf]
      split
      · rfl
      · rw [ValueObject.constantOf, ValueObject.languageIn, ValueObject.datatypeIn]
        cases context.entryFor? entries .type with
        | none => cases context.entryFor? entries .language with
          | none => rfl
          | some language => cases found.2.scalar? with
            | _ => simp only [Option.map_some, Option.map_none, Option.bind_some,
                Setup.value_element]
        | some type => cases context.entryFor? entries .language with
          | none => cases found.2.scalar? with
            | _ => simp only [Option.map_some, Option.map_none, Option.bind_none,
                Setup.value_element]
          | some language => cases found.2.scalar? with
            | _ => simp only [Option.map_some, Option.bind_some, Setup.value_element]

/-! ### Lists -/

theorem run_listMembers_nil (frame : Frame) :
  setup.run ⟨.listMembers, .array [], frame⟩ = .ok (emptyMatch (.iri Vocabulary.rdfNil))
  := rfl

theorem run_listMembers_cons (first : Json) (rest : List Json) (frame : Frame) :
  setup.run ⟨.listMembers, .array (first :: rest), frame⟩
    = (do
        let member := setup.naming.child frame.target memberSegment
        let item ← setup.run ⟨.production .entryValue, first, ⟨member, frame.context, none⟩⟩
        .ok (ListObject.membersMatch frame.target member true item))
  := rfl

theorem run_listMembers_single {value : Json} (h : value.kind ≠ .array) (frame : Frame) :
  setup.run ⟨.listMembers, value, frame⟩
    = (do
        let member := setup.naming.child frame.target memberSegment
        let item ← setup.run ⟨.production .entryValue, value, ⟨member, frame.context, none⟩⟩
        .ok (ListObject.membersMatch frame.target member false item))
  := by
  cases value with
  | array items => exact absurd rfl h
  | _ => rfl

theorem run_listObject (entries : List (String × Json)) (frame : Frame) :
  setup.run ⟨.production .listObject, .object entries, frame⟩
    = (do
        let context ← setup.enter frame.context (entries.lookup Keyword.context.text)
        match context.entryFor? entries .list with
        | none => .error (.unexpected .listObject .object)
        | some (key, members) => do
          let list ← setup.run ⟨.listMembers, members, ⟨frame.target, context, none⟩⟩
          .ok (ListObject.matchOf entries key list))
  := by
  simp only [Setup.run]
  rw [Setup.read_direct setup _ _ _ (by decide) (by decide)]
  simp only [Grammar.directReadings, Setup.choose_grammar, ListObject.read,
    Parts.localContext?_object, Setup.entries_object, Context.entryFor?_map,
    Parts.templateWith_object]
  congr 1
  funext context
  cases context.entryFor? entries .list with
  | none => rfl
  | some found => rfl

/-! ### Graphs -/

theorem run_graphMembers_array (items : List Json) (frame : Frame) :
  setup.run ⟨.graphMembers, .array items, frame⟩
    = (let member := setup.naming.child frame.target memberSegment
      if items.all Json.isObject then
        setup.run ⟨.items .nodeObject, .array items, ⟨member, frame.context, none⟩⟩
      else .ok (GraphObject.refusal member (.array items)))
  := rfl

theorem run_graphMembers_object (entries : List (String × Json)) (frame : Frame) :
  setup.run ⟨.graphMembers, .object entries, frame⟩
    = setup.run ⟨.production .nodeObject, .object entries,
        ⟨setup.naming.child frame.target memberSegment, frame.context, none⟩⟩
  := rfl

theorem run_graphMembers_other {value : Json} (h : value.kind ≠ .array) (h' : value.kind ≠ .object)
    (frame : Frame) :
  setup.run ⟨.graphMembers, value, frame⟩
    = .ok (GraphObject.refusal (setup.naming.child frame.target memberSegment) value)
  := by
  cases value with
  | array items => exact absurd rfl h
  | object entries => exact absurd rfl h'
  | _ => rfl

theorem run_graphValue (value : Json) (frame : Frame) :
  setup.run ⟨.graphValue, value, frame⟩
    = (do
        let members ← setup.run ⟨.graphMembers, value, frame⟩
        .ok (GraphObject.ofMembers frame.target members))
  := rfl

theorem run_graphObject (entries : List (String × Json)) (frame : Frame) :
  setup.run ⟨.production .graphObject, .object entries, frame⟩
    = (do
        let context ← setup.enter frame.context (entries.lookup Keyword.context.text)
        match context.entryFor? entries .graph with
        | none => .error (.unexpected .graphObject .object)
        | some (graphKey, graph) => do
          let members ← setup.run ⟨.graphMembers, graph, ⟨frame.target, context, none⟩⟩
          .ok (GraphObject.matchOf context frame.target entries graphKey members))
  := by
  simp only [Setup.run]
  rw [Setup.read_direct setup _ _ _ (by decide) (by decide)]
  simp only [Grammar.directReadings, Setup.choose_grammar, GraphObject.read,
    Parts.localContext?_object, Setup.entries_object]
  congr 1
  funext context
  have hgraph := context.entryFor?_map entries setup.grammar.element .graph
  have hid := context.entryFor?_map entries setup.grammar.element .id
  rw [hgraph]
  cases context.entryFor? entries .graph with
  | none => rfl
  | some found =>
      have hany (key : String) :
          (context.entryFor? (entries.map fun entry =>
              (entry.1, setup.grammar.element entry.2)) .id).any (·.1 == key)
            = (context.entryFor? entries .id).any (·.1 == key) := by
        rw [hid, Option.any_map]
      have hidentity : (context.entryFor? (entries.map fun entry =>
              (entry.1, setup.grammar.element entry.2)) .id).map
            (fun entry => context.identity entry.2.value)
          = GraphObject.identityOf context entries := by
        rw [hid, Option.map_map, GraphObject.identityOf]
        simp only [Function.comp_def, Setup.value_element]
      simp only [Option.map_some, hany]
      generalize (context.entryFor? _ _).map _ = identity at hidentity ⊢
      subst hidentity
      simp only [List.map_map, List.flatMap_map, Function.comp_def, Setup.value_element]
      rfl

/-! ### Lists and graphs that show themselves -/

/-- A list object without other entries is read like its members. -/
theorem run_entryValue_list (members : Json) (frame : Frame) :
  setup.run ⟨.production .entryValue, .object [(Keyword.list.text, members)], frame⟩
    = (do
        let list ← setup.run ⟨.listMembers, members, ⟨frame.target, frame.context, none⟩⟩
        .ok (ListObject.matchOf [(Keyword.list.text, members)] Keyword.list.text list))
  := by
  have hlocal : [(Keyword.list.text, members)].lookup Keyword.context.text = none := rfl
  have hshape : frame.context.shape (.object [(Keyword.list.text, members)]) = .listObject := by
    simp [Context.shape, Context.objectShape, Context.entryFor?_text]
  rw [run_entryValue, Json.entry?, hlocal, Setup.enter_none, ok_bind, hshape]
  simp only [EntryValue.task?]
  rw [run_listObject, hlocal, Setup.enter_none, ok_bind, Context.entryFor?_text, if_pos rfl]

/-- A graph object without other entries is read like its members. -/
theorem run_entryValue_graph (members : Json) (frame : Frame) :
  setup.run ⟨.production .entryValue, .object [(Keyword.graph.text, members)], frame⟩
    = (do
        let contents ← setup.run ⟨.graphMembers, members, ⟨frame.target, frame.context, none⟩⟩
        .ok (GraphObject.matchOf frame.context frame.target [(Keyword.graph.text, members)]
          Keyword.graph.text contents))
  := by
  have hlocal : [(Keyword.graph.text, members)].lookup Keyword.context.text = none := rfl
  have hshape : frame.context.shape (.object [(Keyword.graph.text, members)]) = .graphObject := by
    simp [Context.shape, Context.objectShape, Context.entryFor?_text]
  rw [run_entryValue, Json.entry?, hlocal, Setup.enter_none, ok_bind, hshape]
  simp only [EntryValue.task?]
  rw [run_graphObject, hlocal, Setup.enter_none, ok_bind, Context.entryFor?_text, if_pos rfl]

end Runs

end LinkedQuery
