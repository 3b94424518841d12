import LinkedQuery.Proofs.Reading.Productions

/-!
# Steps of visits

A visit ends at its value (`Ends`), leads to one other visit (`Leads`), or reads a node object.
`run_cases` says that there is nothing else: every run with a match is one of these.  A visit
leads to a smaller value or to the same value with a lower task, so the steps come to an end.
-/

namespace LinkedQuery

/-- The match of a set object. -/
def setMatch (target : Variable) (value : Json) : Match where
  term := .var target
  template := .value value
  warnings := [⟨.setObject, []⟩]

/-- Whether a value holds the members of a graph: it is an object or an array of objects. -/
def Json.holdsNodes : Json → Bool
  | .array items => items.all Json.isObject
  | value => value.isObject

/-- The visits that lead to no other visit, with their matches. -/
inductive Ends (setup : Setup) : Visit → Match → Prop where
  | null {frame : Frame} :
      Ends setup ⟨.production .entryValue, .null, frame⟩ (nullMatch frame.target)
  | placeholder {frame : Frame} :
      Ends setup ⟨.production .scalar, .string placeholder, frame⟩ (placeholderMatch frame.target)
  | scalar {value : Json} {scalar : Scalar} {frame : Frame}
      (known : value.isPlaceholder = false) (held : value.scalar? = some scalar) :
      Ends setup ⟨.production .scalar, value, frame⟩ (scalar.matchOf value frame)
  | valueObject {entries : List (String × Json)} {frame : Frame} {context : Context}
      {key : String} {value : Json}
      (entered : setup.enter frame.context (entries.lookup Keyword.context.text) = .ok context)
      (held : context.entryFor? entries .value = some (key, value)) :
      Ends setup ⟨.production .valueObject, .object entries, frame⟩
        (ValueObject.matchOf context frame.target entries key value)
  | setObject {value : Json} {frame : Frame} :
      Ends setup ⟨.production .setObject, value, frame⟩ (setMatch frame.target value)
  | noItems {production : Production} {frame : Frame} :
      Ends setup ⟨.items production, .array [], frame⟩ (emptyMatch (.var frame.target))
  | noMembers {frame : Frame} :
      Ends setup ⟨.listMembers, .array [], frame⟩ (emptyMatch (.iri Vocabulary.rdfNil))
  | noNodes {value : Json} {frame : Frame} (refused : value.holdsNodes = false) :
      Ends setup ⟨.graphMembers, value, frame⟩
        (GraphObject.refusal (setup.naming.child frame.target memberSegment) value)

/-- The visits that lead to one other visit, with what they make of its match. -/
inductive Leads (setup : Setup) : Visit → Visit → (Match → Match) → Prop where
  | document {entries : List (String × Json)} {frame : Frame} {context : Context}
      (entered : setup.enter frame.context (entries.lookup Keyword.context.text) = .ok context)
      (bare : context.entryFor? entries .graph = none) :
      Leads setup ⟨.production .document, .object entries, frame⟩
        ⟨.production .nodeObject, .object entries, frame⟩ id
  | documentGraph {entries : List (String × Json)} {frame : Frame} {context : Context}
      {graph : String × Json}
      (entered : setup.enter frame.context (entries.lookup Keyword.context.text) = .ok context)
      (held : context.entryFor? entries .graph = some graph) :
      Leads setup ⟨.production .document, .object entries, frame⟩
        ⟨.production .topLevelGraph, .object entries, frame⟩ id
  | documents {items : List Json} {frame : Frame} :
      Leads setup ⟨.production .document, .array items, frame⟩
        ⟨.production .nodeObjects, .array items, frame⟩ id
  | nodeObjects {items : List Json} {frame : Frame}
      (objects : (items.find? fun item => !item.isObject) = none) :
      Leads setup ⟨.production .nodeObjects, .array items, frame⟩
        ⟨.items .nodeObject, .array items, frame⟩ id
  | items {production : Production} {first : Json} {rest : List Json} {frame : Frame} :
      Leads setup ⟨.items production, .array (first :: rest), frame⟩
        ⟨.production production, first, frame⟩ (itemsMatch frame.target)
  | topLevelGraph {entries : List (String × Json)} {frame : Frame} {context : Context}
      {key : String} {graph : Json} {production : Production}
      (entered : setup.enter frame.context (entries.lookup Keyword.context.text) = .ok context)
      (held : context.entryFor? entries .graph = some (key, graph))
      (chosen : TopLevelGraph.production? graph = some production) :
      Leads setup ⟨.production .topLevelGraph, .object entries, frame⟩
        ⟨.production production, graph, ⟨frame.target, context, none⟩⟩
        (TopLevelGraph.matchOf entries key)
  | entryValue {value : Json} {frame : Frame} {context : Context} {task : Task}
      (entered : setup.enter frame.context (value.entry? Keyword.context.text) = .ok context)
      (chosen : EntryValue.task? (context.shape value) = some task) :
      Leads setup ⟨.production .entryValue, value, frame⟩ ⟨task, value, frame⟩ id
  | listObject {entries : List (String × Json)} {frame : Frame} {context : Context}
      {key : String} {members : Json}
      (entered : setup.enter frame.context (entries.lookup Keyword.context.text) = .ok context)
      (held : context.entryFor? entries .list = some (key, members)) :
      Leads setup ⟨.production .listObject, .object entries, frame⟩
        ⟨.listMembers, members, ⟨frame.target, context, none⟩⟩ (ListObject.matchOf entries key)
  | members {first : Json} {rest : List Json} {frame : Frame} :
      Leads setup ⟨.listMembers, .array (first :: rest), frame⟩
        ⟨.production .entryValue, first,
          ⟨setup.naming.child frame.target memberSegment, frame.context, none⟩⟩
        (ListObject.membersMatch frame.target (setup.naming.child frame.target memberSegment) true)
  | onlyMember {value : Json} {frame : Frame} (single : value.kind ≠ .array) :
      Leads setup ⟨.listMembers, value, frame⟩
        ⟨.production .entryValue, value,
          ⟨setup.naming.child frame.target memberSegment, frame.context, none⟩⟩
        (ListObject.membersMatch frame.target (setup.naming.child frame.target memberSegment) false)
  | graphObject {entries : List (String × Json)} {frame : Frame} {context : Context}
      {key : String} {graph : Json}
      (entered : setup.enter frame.context (entries.lookup Keyword.context.text) = .ok context)
      (held : context.entryFor? entries .graph = some (key, graph)) :
      Leads setup ⟨.production .graphObject, .object entries, frame⟩
        ⟨.graphMembers, graph, ⟨frame.target, context, none⟩⟩
        (GraphObject.matchOf context frame.target entries key)
  | graphNodes {items : List Json} {frame : Frame} (objects : items.all Json.isObject = true) :
      Leads setup ⟨.graphMembers, .array items, frame⟩
        ⟨.items .nodeObject, .array items,
          ⟨setup.naming.child frame.target memberSegment, frame.context, none⟩⟩ id
  | graphNode {entries : List (String × Json)} {frame : Frame} :
      Leads setup ⟨.graphMembers, .object entries, frame⟩
        ⟨.production .nodeObject, .object entries,
          ⟨setup.naming.child frame.target memberSegment, frame.context, none⟩⟩ id
  | graphValue {value : Json} {frame : Frame} :
      Leads setup ⟨.graphValue, value, frame⟩ ⟨.graphMembers, value, frame⟩
        (GraphObject.ofMembers frame.target)

/-! ### Steps are runs -/

section Runs

variable {setup : Setup}

/-- A value without graph members refuses them. -/
theorem run_graphMembers_refused {value : Json} (refused : value.holdsNodes = false)
    (frame : Frame) :
  setup.run ⟨.graphMembers, value, frame⟩
    = .ok (GraphObject.refusal (setup.naming.child frame.target memberSegment) value)
  := by
  cases value with
  | array items =>
      rw [run_graphMembers_array]
      simp only [Json.holdsNodes] at refused
      simp [refused]
  | object entries => simp [Json.holdsNodes, Json.isObject] at refused
  | _ => apply run_graphMembers_other setup (by simp [Json.kind]) (by simp [Json.kind])

/-- A visit that leads to no other has its match. -/
theorem Ends.run {visit : Visit} {found : Match} (last : Ends setup visit found) :
  setup.run visit = .ok found
  := by
  cases last with
  | null => rfl
  | placeholder =>
      rw [run_scalar]
      rfl
  | scalar known held => simp [run_scalar, known, held]
  | valueObject entered held => simp only [run_valueObject, entered, held, ok_bind]
  | setObject => apply run_setObject
  | noItems => apply run_items_nil
  | noMembers => apply run_listMembers_nil
  | noNodes refused => apply run_graphMembers_refused refused

/-- The value of a link is null where it has the shape of null, and has the match of null. -/
theorem NodeObject.Link.eq_nullMatch {link : NodeObject.Link} {inner : Context} {value : Json}
    {item : Match} (null : inner.shape value = .null)
    (h : setup.run (link.visit inner value) = .ok item) :
  item = nullMatch link.child
  := by
  obtain rfl : value = .null := EntryValue.eq_null_of_task? (by rw [null]; rfl)
  have hvisit : link.visit inner .null
      = ⟨.production .entryValue, .null, ⟨link.child, inner, link.definition.coercion⟩⟩ := by
    simp [visit, task, Context.shape]
  rw [hvisit, Ends.null.run, Except.ok.injEq] at h
  exact h.symm

/-- A visit that leads to another has the match that it makes of the other's. -/
theorem Leads.run {outer inner : Visit} {make : Match → Match}
    (step : Leads setup outer inner make) :
  setup.run outer = (do
    let found ← setup.run inner
    .ok (make found))
  := by
  have hid (visit : Visit) : setup.run visit = (do
      let found ← setup.run visit
      .ok (id found)) := by
    cases setup.run visit with
    | error fault => rfl
    | ok found => rfl
  cases step with
  | document entered bare =>
      simp only [run_document_object, entered, ok_bind, bare, Option.isSome_none,
        Bool.false_eq_true, if_false]
      apply hid
  | documentGraph entered held =>
      simp only [run_document_object, entered, ok_bind, held, Option.isSome_some, if_true]
      apply hid
  | documents =>
      rw [run_document_array]
      apply hid
  | nodeObjects objects =>
      rw [run_nodeObjects, objects]
      apply hid
  | items => rfl
  | topLevelGraph entered held chosen =>
      simp only [run_topLevelGraph, entered, held, chosen, ok_bind]
  | entryValue entered chosen =>
      rw [run_entryValue, entered, ok_bind, chosen]
      apply hid
  | listObject entered held => simp only [run_listObject, entered, held, ok_bind]
  | members => rfl
  | onlyMember single => apply run_listMembers_single setup single
  | graphObject entered held => simp only [run_graphObject, entered, held, ok_bind]
  | graphNodes objects =>
      rw [run_graphMembers_array]
      simp only [objects, ite_true]
      apply hid
  | graphNode =>
      rw [run_graphMembers_object]
      apply hid
  | graphValue => apply run_graphValue

/-- A visit that leads to another has a match exactly when the other has. -/
theorem Leads.run_eq_ok {outer inner : Visit} {make : Match → Match} {found : Match}
    (step : Leads setup outer inner make) :
  setup.run outer = .ok found ↔ ∃ item, setup.run inner = .ok item ∧ found = make item
  := by
  rw [step.run, bind_eq_ok]
  simp [eq_comm]

/-! ### Runs are steps -/

/-- Whether a visit has a way to go on to a match. -/
def Continues (setup : Setup) (visit : Visit) (found : Match) : Prop :=
  Ends setup visit found ∨
    ∃ inner make item, Leads setup visit inner make ∧ setup.run inner = .ok item ∧
      found = make item

/-- A run of a visit that leads to another is one of the other. -/
theorem Leads.continues {outer inner : Visit} {make : Match → Match} {found : Match}
    (step : Leads setup outer inner make) (h : setup.run outer = .ok found) :
  Continues setup outer found
  := by
  obtain ⟨item, hitem, hmake⟩ := step.run_eq_ok.mp h
  right
  use inner, make, item, step, hitem

/-- The productions of objects have no match for other values. -/
theorem not_run_object {production : Production} {value : Json} (h : value.kind ≠ .object)
    (hp : production = .nodeObject ∨ production = .topLevelGraph ∨ production = .graphObject
      ∨ production = .valueObject ∨ production = .listObject) (frame : Frame) (found : Match) :
  setup.run ⟨.production production, value, frame⟩ ≠ .ok found
  := by
  intro hrun
  cases value with
  | object entries => exact h rfl
  | _ =>
      rcases hp with rfl | rfl | rfl | rfl | rfl
      all_goals
        simp only [Setup.run] at hrun
        rw [Setup.read_direct setup _ _ _ (by decide) (by decide)] at hrun
        cases hrun

/-- A scalar that is read as one is the placeholder or a constant. -/
theorem continues_scalar {value : Json} {frame : Frame} {found : Match}
    (h : setup.run ⟨.production .scalar, value, frame⟩ = .ok found) :
  Continues setup ⟨.production .scalar, value, frame⟩ found
  := by
  left
  rw [run_scalar] at h
  cases hp : value.isPlaceholder with
  | true =>
      cases value with
      | string text =>
          simp only [Json.isPlaceholder, beq_iff_eq] at hp
          subst hp
          simp only [Json.isPlaceholder, beq_self_eq_true, if_true, Except.ok.injEq] at h
          subst h
          apply Ends.placeholder
      | _ => simp [Json.isPlaceholder] at hp
  | false =>
      simp only [hp, Bool.false_eq_true, if_false] at h
      cases hs : value.scalar? with
      | none => simp [hs] at h
      | some scalar =>
          simp only [hs, Except.ok.injEq] at h
          subst h
          apply Ends.scalar hp hs

/-- An entry value is null or is read by the task of its shape. -/
theorem continues_entryValue {value : Json} {frame : Frame} {found : Match}
    (h : setup.run ⟨.production .entryValue, value, frame⟩ = .ok found) :
  Continues setup ⟨.production .entryValue, value, frame⟩ found
  := by
  have h' := h
  rw [run_entryValue] at h'
  obtain ⟨context, entered, h'⟩ := bind_eq_ok.mp h'
  cases chosen : EntryValue.task? (context.shape value) with
  | some task => apply (Leads.entryValue entered chosen).continues h
  | none =>
      left
      obtain rfl := EntryValue.eq_null_of_task? chosen
      simp only [chosen, Except.ok.injEq] at h'
      subst h'
      apply Ends.null

/-- A document is read as a node object, as nodes or as a graph of nodes. -/
theorem continues_document {value : Json} {frame : Frame} {found : Match}
    (h : setup.run ⟨.production .document, value, frame⟩ = .ok found) :
  Continues setup ⟨.production .document, value, frame⟩ found
  := by
  cases value with
  | array items => apply Leads.documents.continues h
  | object entries =>
      have h' := h
      rw [run_document_object] at h'
      obtain ⟨context, entered, -⟩ := bind_eq_ok.mp h'
      cases hgraph : context.entryFor? entries .graph with
      | none => apply (Leads.document entered hgraph).continues h
      | some graph => apply (Leads.documentGraph entered hgraph).continues h
  | _ => cases h

/-- Nodes are read as the items of an array of objects. -/
theorem continues_nodeObjects {value : Json} {frame : Frame} {found : Match}
    (h : setup.run ⟨.production .nodeObjects, value, frame⟩ = .ok found) :
  Continues setup ⟨.production .nodeObjects, value, frame⟩ found
  := by
  cases value with
  | array items =>
      have h' := h
      rw [run_nodeObjects] at h'
      cases hfind : items.find? fun item => !item.isObject with
      | none => apply (Leads.nodeObjects hfind).continues h
      | some item => simp [hfind] at h'
  | _ => cases h

/-- The productions of objects that hold something under a keyword read what is there. -/
theorem continues_object {production : Production} {entries : List (String × Json)} {frame : Frame}
    {found : Match}
    (hp : production = .topLevelGraph ∨ production = .graphObject ∨ production = .valueObject
      ∨ production = .listObject)
    (h : setup.run ⟨.production production, .object entries, frame⟩ = .ok found) :
  Continues setup ⟨.production production, .object entries, frame⟩ found
  := by
  have h' := h
  rcases hp with rfl | rfl | rfl | rfl
  · rw [run_topLevelGraph] at h'
    obtain ⟨context, entered, h'⟩ := bind_eq_ok.mp h'
    cases held : context.entryFor? entries .graph with
    | none => simp [held] at h'
    | some graph =>
        cases chosen : TopLevelGraph.production? graph.2 with
        | none => simp [held, chosen] at h'
        | some production =>
            apply (Leads.topLevelGraph entered held chosen).continues h
  · rw [run_graphObject] at h'
    obtain ⟨context, entered, h'⟩ := bind_eq_ok.mp h'
    cases held : context.entryFor? entries .graph with
    | none => simp [held] at h'
    | some graph => apply (Leads.graphObject entered held).continues h
  · rw [run_valueObject] at h'
    obtain ⟨context, entered, h'⟩ := bind_eq_ok.mp h'
    cases held : context.entryFor? entries .value with
    | none => simp [held] at h'
    | some value =>
        simp only [held, Except.ok.injEq] at h'
        subst h'
        left
        apply Ends.valueObject entered held
  · rw [run_listObject] at h'
    obtain ⟨context, entered, h'⟩ := bind_eq_ok.mp h'
    cases held : context.entryFor? entries .list with
    | none => simp [held] at h'
    | some members => apply (Leads.listObject entered held).continues h

/-- The members of a list are none, many or one. -/
theorem continues_listMembers {value : Json} {frame : Frame} {found : Match}
    (h : setup.run ⟨.listMembers, value, frame⟩ = .ok found) :
  Continues setup ⟨.listMembers, value, frame⟩ found
  := by
  cases value with
  | array items =>
      cases items with
      | nil =>
          left
          cases h
          apply Ends.noMembers
      | cons first rest => apply Leads.members.continues h
  | _ => apply (Leads.onlyMember (by simp [Json.kind])).continues h

/-- The members of a graph are nodes, one node or refused. -/
theorem continues_graphMembers {value : Json} {frame : Frame} {found : Match}
    (h : setup.run ⟨.graphMembers, value, frame⟩ = .ok found) :
  Continues setup ⟨.graphMembers, value, frame⟩ found
  := by
  cases hnodes : value.holdsNodes with
  | false =>
      rw [run_graphMembers_refused hnodes, Except.ok.injEq] at h
      subst h
      left
      apply Ends.noNodes hnodes
  | true =>
      cases value with
      | array items => apply (Leads.graphNodes hnodes).continues h
      | object entries => apply Leads.graphNode.continues h
      | _ => cases hnodes

/-- A visit with a match ends, leads to another visit, or reads a node object. -/
theorem run_cases {visit : Visit} {found : Match} (h : setup.run visit = .ok found) :
  Continues setup visit found ∨
    ∃ entries, visit.task = .production .nodeObject ∧ visit.value = .object entries
  := by
  obtain ⟨task, value, frame⟩ := visit
  cases task with
  | items production =>
      left
      cases value with
      | array items =>
          cases items with
          | nil =>
              left
              cases h
              apply Ends.noItems
          | cons first rest => apply Leads.items.continues h
      | _ => cases h
  | listMembers => exact .inl (continues_listMembers h)
  | graphMembers => exact .inl (continues_graphMembers h)
  | graphValue => exact .inl (Leads.graphValue.continues h)
  | production production =>
      by_cases hobject : value.kind = .object
      · cases value with
        | object entries =>
            cases production with
            | nodeObject => exact .inr ⟨entries, rfl, rfl⟩
            | document => exact .inl (continues_document h)
            | nodeObjects => exact .inl (continues_nodeObjects h)
            | entryValue => exact .inl (continues_entryValue h)
            | scalar => exact .inl (continues_scalar h)
            | setObject =>
                rw [run_setObject, Except.ok.injEq] at h
                subst h
                exact .inl (.inl .setObject)
            | _ => exact .inl (continues_object (by simp) h)
        | _ => cases hobject
      · left
        cases production with
        | document => exact continues_document h
        | nodeObjects => exact continues_nodeObjects h
        | entryValue => exact continues_entryValue h
        | scalar => exact continues_scalar h
        | setObject =>
            rw [run_setObject, Except.ok.injEq] at h
            subst h
            exact .inl .setObject
        | _ => exact absurd h (not_run_object hobject (by simp) frame found)

/-! ### The order of visits -/

/-- How many tasks a task can go through before it reads a part of its value. -/
def Task.rank : Task → Nat
  | .production .document => 2
  | .production .nodeObjects => 1
  | .production .entryValue => 1
  | .production _ => 0
  | .items _ => 0
  | .listMembers => 2
  | .graphMembers => 1
  | .graphValue => 2

/-- The values of the entries of an object are smaller than the object. -/
theorem sizeOf_entry_lt {entries : List (String × Json)} {entry : String × Json}
    (h : entry ∈ entries) :
  sizeOf entry.2 < sizeOf (Json.object entries)
  := by
  have := List.sizeOf_lt_of_mem h
  obtain ⟨key, value⟩ := entry
  simp only [Prod.mk.sizeOf_spec, Json.object.sizeOf_spec] at *
  omega

/-- The entry for a keyword is one of the entries. -/
theorem Context.mem_of_entryFor? {α : Type} {context : Context} {entries : List (String × α)}
    {keyword : Keyword} {entry : String × α}
    (h : context.entryFor? entries keyword = some entry) :
  entry ∈ entries
  := List.mem_of_find?_eq_some h

/-- The entries for two keywords have two keys. -/
theorem Context.key_ne {α β : Type} {context : Context} {entries : List (String × α)}
    {entries' : List (String × β)} {keyword keyword' : Keyword} {entry : String × α}
    {entry' : String × β} (h : context.entryFor? entries keyword = some entry)
    (h' : context.entryFor? entries' keyword' = some entry') (hne : keyword ≠ keyword') :
  entry.1 ≠ entry'.1
  := by
  intro heq
  have hmeaning := List.find?_some h
  have hmeaning' := List.find?_some h'
  simp only [beq_iff_eq] at hmeaning hmeaning'
  rw [heq, hmeaning', Meaning.keyword.injEq] at hmeaning
  exact hne hmeaning.symm

/-- A visit leads to a smaller value, or to the same value with a lower task. -/
theorem Leads.decreases {outer inner : Visit} {make : Match → Match}
    (step : Leads setup outer inner make) :
  sizeOf inner.value < sizeOf outer.value ∨
    sizeOf inner.value = sizeOf outer.value ∧ inner.task.rank < outer.task.rank
  := by
  cases step with
  | document | documentGraph | documents | nodeObjects | onlyMember | graphNodes | graphNode
  | graphValue =>
      right
      simp [Task.rank]
  | entryValue entered chosen =>
      right
      constructor
      · rfl
      · revert chosen
        cases Context.shape _ _
        all_goals
          simp only [EntryValue.task?, Option.some.injEq, reduceCtorEq, false_imp_iff]
          try
            rintro rfl
            decide
  | items | members =>
      left
      simp only [Json.array.sizeOf_spec, List.cons.sizeOf_spec]
      omega
  | topLevelGraph entered held chosen =>
      left
      apply sizeOf_entry_lt (Context.mem_of_entryFor? held)
  | listObject entered held =>
      left
      apply sizeOf_entry_lt (Context.mem_of_entryFor? held)
  | graphObject entered held =>
      left
      apply sizeOf_entry_lt (Context.mem_of_entryFor? held)

end Runs

end LinkedQuery
