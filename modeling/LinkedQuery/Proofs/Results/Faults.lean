import LinkedQuery.Proofs.Reading.Log
import LinkedQuery.Proofs.Reading.Progress

/-!
# Faults of documents

A document makes a query, or one of its contexts cannot be processed, or it is no document of node
objects; the last is told from the document and its own context alone (`query_faults`).  No
production is ever given a value that it does not read.
-/

namespace LinkedQuery

/-- The faults that say that a document is no document of node objects. -/
inductive QueryFault.OfDocument : QueryFault → Prop where
  | notDocument (found : Json.Kind) : OfDocument (.notDocument found)
  | notNodeObject (found : Json.Kind) : OfDocument (.notNodeObject found)
  | notGraph (found : Json.Kind) : OfDocument (.notGraph found)
  | refused (reason : String) : OfDocument (.refused reason)

/-- The first item that is no object. -/
def Json.firstOther? (items : List Json) : Option Json :=
  items.find? fun item => !item.isObject

/-- The documents that are no documents of node objects, with their faults. -/
inductive Refuses (setup : Setup) : Json → QueryFault → Prop where
  /-- Null and scalars are no documents. -/
  | shape {document : Json} (array : document.kind ≠ .array) (object : document.kind ≠ .object) :
      Refuses setup document (.notDocument document.kind)
  /-- The items of a document are objects. -/
  | items {items : List Json} {item : Json} (other : Json.firstOther? items = some item) :
      Refuses setup (.array items) (.notNodeObject item.kind)
  /-- Null and scalars are no graphs. -/
  | graph {entries : List (String × Json)} {context : Context} {key : String} {graph : Json}
      (entered : setup.enter {} (entries.lookup Keyword.context.text) = .ok context)
      (held : context.entryFor? entries .graph = some (key, graph))
      (array : graph.kind ≠ .array) (object : graph.kind ≠ .object) :
      Refuses setup (.object entries) (.notGraph graph.kind)
  /-- The items of a graph are objects. -/
  | graphItems {entries : List (String × Json)} {context : Context} {key : String}
      {items : List Json} {item : Json}
      (entered : setup.enter {} (entries.lookup Keyword.context.text) = .ok context)
      (held : context.entryFor? entries .graph = some (key, .array items))
      (other : Json.firstOther? items = some item) :
      Refuses setup (.object entries) (.notNodeObject item.kind)

variable {setup : Setup}

/-! ### Documents that are refused -/

theorem Refuses.ofDocument {document : Json} {fault : QueryFault}
    (refuses : Refuses setup document fault) :
  fault.OfDocument
  := by
  cases refuses with
  | shape array object => apply QueryFault.OfDocument.notDocument
  | items other => apply QueryFault.OfDocument.notNodeObject
  | graph entered held array object => apply QueryFault.OfDocument.notGraph
  | graphItems entered held other => apply QueryFault.OfDocument.notNodeObject

/-- An array with an item that is no object is not read. -/
theorem run_nodeObjects_other {items : List Json} {item : Json}
    (other : Json.firstOther? items = some item) (frame : Frame) :
  setup.run ⟨.production .nodeObjects, .array items, frame⟩ = .error (.notNodeObject item.kind)
  := by
  rw [Json.firstOther?] at other
  rw [run_nodeObjects, other]

/-- A document that is refused has the fault for which it is refused. -/
theorem Refuses.run {document : Json} {fault : QueryFault}
    (refuses : Refuses setup document fault) :
  setup.run (setup.documentVisit document) = .error fault
  := by
  cases refuses with
  | shape array object =>
      cases document with
      | array items => exact absurd rfl array
      | object entries => exact absurd rfl object
      | _ => rfl
  | items other => apply run_nodeObjects_other other
  | @graph entries context key graph entered held array object =>
      rw [Setup.documentVisit, run_document_graph setup entered held]
      cases graph with
      | array items => exact absurd rfl array
      | object inner => exact absurd rfl object
      | _ => rfl
  | graphItems entered held other =>
      rw [Setup.documentVisit, run_document_graph setup entered held, TopLevelGraph.production?]
      dsimp only
      rw [run_nodeObjects_other other]
      rfl

/-! ### Documents that are not refused -/

/-- An array is read as node objects unless it has an item that is no object. -/
theorem settled_nodeObjects (setup : Setup) (items : List Json) (frame : Frame) :
  Settled (setup.run ⟨.production .nodeObjects, .array items, frame⟩)
    ∨ ∃ item, Json.firstOther? items = some item
  := by
  cases found : Json.firstOther? items with
  | some item => exact .inr ⟨item, rfl⟩
  | none =>
      left
      have objects : items.all Json.isObject = true := by
        simpa [Json.firstOther?] using found
      rw [Json.firstOther?] at found
      rw [run_nodeObjects, found]
      apply (suits_nodes objects frame).settled

/-- An object is read as a node object or a graph of node objects unless its graph is refused. -/
theorem settled_object (setup : Setup) (entries : List (String × Json)) :
  Settled (setup.run (setup.documentVisit (.object entries)))
    ∨ ∃ fault, Refuses setup (.object entries) fault
  := by
  have settled := setup.settled_enter {} (entries.lookup Keyword.context.text)
  generalize entered : setup.enter {} (entries.lookup Keyword.context.text) = result at settled
  cases settled with
  | context fault =>
      left
      rw [Setup.documentVisit, run_document_object, entered]
      apply Settled.context
  | ok context =>
      cases held : context.entryFor? entries .graph with
      | none =>
          left
          rw [Setup.documentVisit, (Leads.document entered held).run]
          apply (Suits.nodeObject _ _).settled.bind
          intro found _
          apply Settled.ok
      | some entry =>
          obtain ⟨key, graph⟩ := entry
          rw [Setup.documentVisit, run_document_graph setup entered held]
          cases graph with
          | array items =>
              obtain settled | ⟨item, other⟩ :=
                settled_nodeObjects setup items ⟨setup.naming.rootVariable, context, none⟩
              · left
                apply settled.bind
                intro contents _
                apply Settled.ok
              · exact .inr ⟨_, .graphItems entered held other⟩
          | object inner =>
              left
              apply (Suits.nodeObject _ _).settled.bind
              intro contents _
              apply Settled.ok
          | _ => exact .inr ⟨_, .graph entered held Json.Kind.noConfusion Json.Kind.noConfusion⟩

/-- A document that is not refused has a match, or a context cannot be processed. -/
theorem settled_or_refuses (setup : Setup) (document : Json) :
  Settled (setup.run (setup.documentVisit document)) ∨ ∃ fault, Refuses setup document fault
  := by
  cases document with
  | object entries => apply settled_object
  | array items =>
      obtain settled | ⟨item, other⟩ :=
        settled_nodeObjects setup items ⟨setup.naming.rootVariable, {}, none⟩
      · exact .inl settled
      · exact .inr ⟨_, .items other⟩
  | _ => exact .inr ⟨_, .shape Json.Kind.noConfusion Json.Kind.noConfusion⟩

/-! ### Faults of queries -/

/-- The entry that is found for a keyword is the one that its key looks up. -/
theorem Context.lookup_entryFor? (context : Context) (entries : List (String × Json))
    (keyword : Keyword) :
  ((context.entryFor? entries keyword).bind fun entry => entries.lookup entry.1)
    = (context.entryFor? entries keyword).map Prod.snd
  := by
  cases held : context.entryFor? entries keyword with
  | none => rfl
  | some entry =>
      obtain ⟨stands, before, after, rfl, earlier⟩ := List.find?_eq_some_iff_append.mp held
      -- An entry in front with the same key would have been found before.
      have apart : before.lookup entry.1 = none := by
        rw [List.lookup_eq_none_iff]
        intro other hother
        rw [bne_iff_ne]
        intro hkey
        have hmeaning := earlier other hother
        rw [← hkey, stands] at hmeaning
        cases hmeaning
      rw [Option.bind_some, Option.map_some, List.lookup_append, apart]
      apply List.lookup_cons_self

/-- A query fails exactly when the reading of its document does. -/
theorem query_eq_error {document : Json} {fault : QueryFault} :
  setup.grammar.query document = .error fault
    ↔ setup.run (setup.documentVisit document) = .error fault
  := by
  rw [Grammar.query, bind_eq_error]
  constructor
  · rintro (h | ⟨found, -, h⟩)
    · apply h
    · cases h
  · intro h
    exact .inl h

/-- A document makes a query, a context cannot be processed, or the document is refused. -/
theorem query_cases (setup : Setup) (document : Json) :
  (∃ query, setup.grammar.query document = .ok query)
    ∨ (∃ fault, setup.grammar.query document = .error (.context fault))
    ∨ ∃ fault, setup.grammar.query document = .error fault ∧ Refuses setup document fault
  := by
  obtain settled | ⟨fault, refuses⟩ := settled_or_refuses setup document
  · generalize h : setup.run (setup.documentVisit document) = result at settled
    cases settled with
    | ok found =>
        obtain ⟨log, derived⟩ := exists_derives _ _ h
        exact .inl ⟨found.query, query_eq_ok.mpr ⟨found, log, derived, rfl⟩⟩
    | context fault => exact .inr (.inl ⟨fault, query_eq_error.mpr h⟩)
  · exact .inr (.inr ⟨fault, query_eq_error.mpr refuses.run, refuses⟩)

/-- A document makes a query, a context cannot be processed, or the document itself is at fault, and
then it is one of those that are refused; no production is given a value that it does not read, and
the key that is found for a keyword is there. -/
theorem query_faults (setup : Setup) (document : Json) :
  ((∃ query, setup.grammar.query document = .ok query)
      ∨ (∃ fault, setup.grammar.query document = .error (.context fault))
      ∨ ∃ fault, setup.grammar.query document = .error fault ∧ fault.OfDocument)
    ∧ (∀ production found,
      setup.grammar.query document ≠ .error (.unexpected production found))
    ∧ (∀ fault, (setup.grammar.query document = .error fault ∧ fault.OfDocument)
      ↔ Refuses setup document fault)
    ∧ ∀ (context : Context) (entries : List (String × Json)) (keyword : Keyword),
      ((context.entryFor? entries keyword).bind fun entry => entries.lookup entry.1)
        = (context.entryFor? entries keyword).map Prod.snd
  := by
  have faulty {fault : QueryFault} (h : setup.grammar.query document = .error fault) :
      (∃ inner, fault = .context inner) ∨ Refuses setup document fault := by
    obtain ⟨query, hquery⟩ | ⟨inner, hinner⟩ | ⟨other, hother, refuses⟩ :=
      query_cases setup document
    · rw [h] at hquery
      cases hquery
    · rw [h, Except.error.injEq] at hinner
      exact .inl ⟨inner, hinner⟩
    · rw [h, Except.error.injEq] at hother
      subst hother
      exact .inr refuses
  refine ⟨?_, ?_, ?_, fun context entries keyword => context.lookup_entryFor? entries keyword⟩
  · obtain hquery | hcontext | ⟨fault, h, refuses⟩ := query_cases setup document
    · exact .inl hquery
    · exact .inr (.inl hcontext)
    · exact .inr (.inr ⟨fault, h, refuses.ofDocument⟩)
  · intro production found h
    obtain ⟨inner, hinner⟩ | refuses := faulty h
    · cases hinner
    · cases refuses
  · intro fault
    constructor
    · rintro ⟨h, ofDocument⟩
      obtain ⟨inner, rfl⟩ | refuses := faulty h
      · cases ofDocument
      · exact refuses
    · intro refuses
      exact ⟨query_eq_error.mpr refuses.run, refuses.ofDocument⟩

/-- A graph with a film and a title that stands alone. -/
example : ({} : Setup).grammar.query
    (.object [("@graph", .array [.object [("ex:title", .string "?")], .string "Alien"])])
      = .error (.notNodeObject .string)
  := rfl

end LinkedQuery
