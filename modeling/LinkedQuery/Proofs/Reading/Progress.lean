import LinkedQuery.Proofs.Reading.Derivation

/-!
# Progress of visits

A visit suits when its task reads values like the one that it is given.  Such a visit ends, reads a
node object or leads to another that suits (`Suits.progress`), unless a context cannot be processed;
so that is the only reason for which its run can fail (`Suits.settled`).
-/

namespace LinkedQuery

variable {setup : Setup}

/-! ### Results that are settled -/

/-- Whether a computation has a result or fails because a context cannot be processed. -/
inductive Settled {α : Type} : Except QueryFault α → Prop where
  | ok (value : α) : Settled (.ok value)
  | context (fault : ContextFault) : Settled (.error (.context fault))

/-- Steps that follow each other are settled if each of them is. -/
theorem Settled.bind {α β : Type} {first : Except QueryFault α} {rest : α → Except QueryFault β}
    (settled : Settled first) (h : ∀ value, first = .ok value → Settled (rest value)) :
  Settled (first >>= rest)
  := by
  cases settled with
  | ok value => apply h value rfl
  | context fault => apply Settled.context

theorem Setup.settled_enter (context : Context) (declared : Option Json) :
  Settled (setup.enter context declared)
  := by
  rw [enter]
  cases context.enter setup.loader declared with
  | ok own => apply Settled.ok
  | error fault => apply Settled.context

/-! ### Visits that suit -/

/-- Whether the task of a visit reads values like the one that it is given.  The productions of
objects that hold something under a keyword suit where the dispatch has found the keyword. -/
inductive Suits (setup : Setup) : Visit → Prop where
  | entryValue (value : Json) (frame : Frame) : Suits setup ⟨.production .entryValue, value, frame⟩
  | nodeObject (entries : List (String × Json)) (frame : Frame) :
      Suits setup ⟨.production .nodeObject, .object entries, frame⟩
  | setObject (value : Json) (frame : Frame) : Suits setup ⟨.production .setObject, value, frame⟩
  | scalar {value : Json} {scalar : Scalar} (held : value.scalar? = some scalar) (frame : Frame) :
      Suits setup ⟨.production .scalar, value, frame⟩
  | graphObject {entries : List (String × Json)} {frame : Frame} {context : Context}
      {graph : String × Json}
      (entered : setup.enter frame.context (entries.lookup Keyword.context.text) = .ok context)
      (held : context.entryFor? entries .graph = some graph) :
      Suits setup ⟨.production .graphObject, .object entries, frame⟩
  | valueObject {entries : List (String × Json)} {frame : Frame} {context : Context}
      {value : String × Json}
      (entered : setup.enter frame.context (entries.lookup Keyword.context.text) = .ok context)
      (held : context.entryFor? entries .value = some value) :
      Suits setup ⟨.production .valueObject, .object entries, frame⟩
  | listObject {entries : List (String × Json)} {frame : Frame} {context : Context}
      {list : String × Json}
      (entered : setup.enter frame.context (entries.lookup Keyword.context.text) = .ok context)
      (held : context.entryFor? entries .list = some list) :
      Suits setup ⟨.production .listObject, .object entries, frame⟩
  | noItems (production : Production) (frame : Frame) :
      Suits setup ⟨.items production, .array [], frame⟩
  | items {production : Production} {first : Json} (rest : List Json) {frame : Frame}
      (suits : Suits setup ⟨.production production, first, frame⟩) :
      Suits setup ⟨.items production, .array (first :: rest), frame⟩
  | listMembers (value : Json) (frame : Frame) : Suits setup ⟨.listMembers, value, frame⟩
  | graphMembers (value : Json) (frame : Frame) : Suits setup ⟨.graphMembers, value, frame⟩
  | graphValue (value : Json) (frame : Frame) : Suits setup ⟨.graphValue, value, frame⟩

/-- Items that are objects suit as node objects. -/
theorem suits_nodes {items : List Json} (objects : items.all Json.isObject = true)
    (frame : Frame) :
  Suits setup ⟨.items .nodeObject, .array items, frame⟩
  := by
  cases items with
  | nil => apply Suits.noItems
  | cons first rest =>
      apply Suits.items
      rw [List.all_cons, Bool.and_eq_true] at objects
      cases first with
      | object entries => apply Suits.nodeObject
      | _ => cases objects.1

/-- The task of the shape of an object suits. -/
theorem suits_objectShape {entries : List (String × Json)} {frame : Frame} {context : Context}
    {task : Task}
    (entered : setup.enter frame.context (entries.lookup Keyword.context.text) = .ok context)
    (chosen : EntryValue.task? (context.shape (.object entries)) = some task) :
  Suits setup ⟨task, .object entries, frame⟩
  := by
  rw [Context.shape, Context.objectShape] at chosen
  split at chosen
  · rename_i hgraph
    obtain ⟨graph, held⟩ := Option.isSome_iff_exists.mp hgraph
    cases chosen
    apply Suits.graphObject entered held
  · split at chosen
    · rename_i hvalue
      obtain ⟨value, held⟩ := Option.isSome_iff_exists.mp hvalue
      cases chosen
      apply Suits.valueObject entered held
    · split at chosen
      · rename_i hlist
        obtain ⟨list, held⟩ := Option.isSome_iff_exists.mp hlist
        cases chosen
        apply Suits.listObject entered held
      · split at chosen
        · cases chosen
          apply Suits.setObject
        · cases chosen
          apply Suits.nodeObject

/-- The task of the shape of an entry value suits. -/
theorem suits_shape {value : Json} {frame : Frame} {context : Context} {task : Task}
    (entered : setup.enter frame.context (value.entry? Keyword.context.text) = .ok context)
    (chosen : EntryValue.task? (context.shape value) = some task) :
  Suits setup ⟨task, value, frame⟩
  := by
  cases value with
  | null => cases chosen
  | array items =>
      cases chosen
      cases items with
      | nil => apply Suits.noItems
      | cons first rest => apply Suits.items rest (.entryValue first frame)
  | object entries => apply suits_objectShape entered chosen
  | _ =>
      cases chosen
      apply Suits.scalar rfl

/-- The visit to the value of a link suits. -/
theorem NodeObject.Link.suits (link : Link) (inner : Context) (value : Json) :
  Suits setup (link.visit inner value)
  := by
  rw [visit, task]
  split
  · apply Suits.graphValue
  · split
    · apply Suits.listMembers
    · apply Suits.entryValue

/-! ### Progress -/

/-- How a visit that suits goes on. -/
inductive Progress (setup : Setup) : Visit → Prop where
  | ends {visit : Visit} {found : Match} (last : Ends setup visit found) : Progress setup visit
  | leads {outer inner : Visit} {make : Match → Match} (step : Leads setup outer inner make)
      (suits : Suits setup inner) : Progress setup outer
  | node {visit : Visit} {entries : List (String × Json)} {frame : Frame}
      (h : visit = ⟨.production .nodeObject, .object entries, frame⟩) : Progress setup visit
  | fails {visit : Visit} {fault : ContextFault} (h : setup.run visit = .error (.context fault)) :
      Progress setup visit

/-- An entry value goes on with the task of its shape, if its context can be processed. -/
theorem progress_entryValue (value : Json) (frame : Frame) :
  Progress setup ⟨.production .entryValue, value, frame⟩
  := by
  have settled := setup.settled_enter frame.context (value.entry? Keyword.context.text)
  generalize entered : setup.enter frame.context (value.entry? Keyword.context.text) = result
    at settled
  cases settled with
  | context fault =>
      have failed : setup.run ⟨.production .entryValue, value, frame⟩
          = .error (.context fault) := by
        rw [run_entryValue, entered]
        rfl
      apply Progress.fails failed
  | ok context =>
      cases chosen : EntryValue.task? (context.shape value) with
      | none =>
          obtain rfl := EntryValue.eq_null_of_task? chosen
          apply Progress.ends .null
      | some task => apply Progress.leads (.entryValue entered chosen) (suits_shape entered chosen)

theorem progress_scalar {value : Json} {scalar : Scalar} (held : value.scalar? = some scalar)
    (frame : Frame) :
  Progress setup ⟨.production .scalar, value, frame⟩
  := by
  cases known : value.isPlaceholder with
  | true =>
      obtain rfl := Json.eq_placeholder known
      apply Progress.ends .placeholder
  | false => apply Progress.ends (.scalar known held)

theorem progress_listMembers (value : Json) (frame : Frame) :
  Progress setup ⟨.listMembers, value, frame⟩
  := by
  cases value with
  | array items =>
      cases items with
      | nil => apply Progress.ends .noMembers
      | cons first rest => apply Progress.leads .members (.entryValue _ _)
  | _ => apply Progress.leads (.onlyMember Json.Kind.noConfusion) (.entryValue _ _)

theorem progress_graphMembers (value : Json) (frame : Frame) :
  Progress setup ⟨.graphMembers, value, frame⟩
  := by
  cases nodes : value.holdsNodes with
  | false => apply Progress.ends (.noNodes nodes)
  | true =>
      cases value with
      | array items => apply Progress.leads (.graphNodes nodes) (suits_nodes nodes _)
      | object entries => apply Progress.leads .graphNode (.nodeObject _ _)
      | _ => cases nodes

theorem Suits.progress {visit : Visit} (suits : Suits setup visit) :
  Progress setup visit
  := by
  cases suits with
  | entryValue value frame => apply progress_entryValue
  | nodeObject entries frame => apply Progress.node rfl
  | setObject value frame => apply Progress.ends .setObject
  | scalar held frame => apply progress_scalar held
  | graphObject entered held =>
      apply Progress.leads (.graphObject entered held) (.graphMembers _ _)
  | valueObject entered held => apply Progress.ends (.valueObject entered held)
  | listObject entered held => apply Progress.leads (.listObject entered held) (.listMembers _ _)
  | noItems production frame => apply Progress.ends .noItems
  | items rest suits => apply Progress.leads .items suits
  | listMembers value frame => apply progress_listMembers
  | graphMembers value frame => apply progress_graphMembers
  | graphValue value frame => apply Progress.leads .graphValue (.graphMembers _ _)

/-! ### Runs -/

/-- The shares of rows are settled if the visits to the values of their links are. -/
theorem NodeObject.settled_shares (scope : Scope) {given : List Row}
    (settled : ∀ row ∈ given, ∀ (link : Link) (inner : Context),
      Settled (setup.run (link.visit inner row.value))) :
  Settled (shares setup scope (given.map Row.role)
    (given.map fun row => (row.key, setup.grammar.element row.value)))
  := by
  induction given with
  | nil => apply Settled.ok
  | cons row given ih =>
      obtain ⟨first, others⟩ := List.forall_mem_cons.mp settled
      have hshare : Settled (share setup scope row.role row.key
          (setup.grammar.element row.value)) := by
        cases hlink : row.link? scope.context with
        | none =>
            rw [share_of_plain setup hlink]
            apply Settled.ok
        | some link =>
            rw [share_of_link setup hlink]
            apply (setup.settled_enter _ _).bind
            intro inner _
            apply (first link inner).bind
            intro item _
            apply Settled.ok
      apply hshare.bind
      intro found _
      apply (ih others).bind
      intro rest _
      apply Settled.ok

/-- The run of a visit that suits has a match, or a context cannot be processed. -/
theorem Suits.settled {visit : Visit} (suits : Suits setup visit) :
  Settled (setup.run visit)
  := by
  cases suits.progress with
  | ends last =>
      rw [last.run]
      apply Settled.ok
  | leads step inner =>
      have := step.decreases
      rw [step.run]
      apply inner.settled.bind
      intro item _
      apply Settled.ok
  | @node entries frame h =>
      rw [h, NodeObject.run_nodeObject]
      apply (setup.settled_enter _ _).bind
      intro context _
      apply Settled.bind
      · apply NodeObject.settled_shares
        intro row hrow link inner
        have : sizeOf (link.visit inner row.value).value < sizeOf visit.value := by
          rw [h]
          apply sizeOf_entry_lt (NodeObject.mem_entries_of_mem_rows hrow)
        apply (link.suits inner row.value).settled
      · intro found _
        apply Settled.ok
  | fails h =>
      rw [h]
      apply Settled.context
termination_by (sizeOf visit.value, visit.task.rank)
decreasing_by
  · simp only [Prod.lex_def]
    omega
  · simp only [Prod.lex_def]
    omega

end LinkedQuery
