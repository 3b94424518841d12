import LinkedQuery.Proofs.Reading.Place

/-!
# Changes within a value

A value can take the place of another where the two are `Alike` to the productions around them.
Then all visits on the way to the place go on as before, and what is made of a match is the same
as before.  `Comes.transfer` carries a relation between the matches of the two values to the
matches of the whole.
-/

namespace LinkedQuery

open NodeObject (LinkedAt)

/-- A visit to a value in which the part at a path is changed. -/
def Visit.modify (change : Json → Json) (path : List Step) (visit : Visit) : Visit :=
  { visit with value := visit.value.modify change path }

/-- Whether a value can take the place of another, below a context: both are objects, arrays or
neither, both hold nodes or not, and their local contexts and shapes are the same. -/
structure Alike (setup : Setup) (context : Context) (value new : Json) : Prop where
  isObject : new.isObject = value.isObject
  isArray : new.kind = .array ↔ value.kind = .array
  holdsNodes : new.holdsNodes = value.holdsNodes
  declared : new.entry? Keyword.context.text = value.entry? Keyword.context.text
  shape : ∀ own, setup.enter context (value.entry? Keyword.context.text) = .ok own →
    own.shape new = own.shape value

/-! ### Shapes -/

section Shapes

variable {context : Context} {entries entries' : List (String × Json)}

/-- Whether there is an entry for a keyword depends on the keys. -/
theorem Context.isSome_entryFor? (keyword : Keyword) :
  (context.entryFor? entries keyword).isSome
    = (entries.map Prod.fst).any fun key => context.meaning key == .keyword keyword
  := by
  rw [Bool.eq_iff_iff, Context.entryFor?, List.find?_isSome, List.any_map, List.any_eq_true]
  rfl

/-- The shape of an object depends on the keywords for which there are entries. -/
theorem Context.objectShape_congr (same : ∀ keyword,
      (context.entryFor? entries' keyword).isSome = (context.entryFor? entries keyword).isSome) :
  context.objectShape entries' = context.objectShape entries
  := by
  simp only [Context.objectShape, same]

/-- The shape of an object depends on its keys, in any order. -/
theorem Context.objectShape_perm (keys : (entries'.map Prod.fst).Perm (entries.map Prod.fst)) :
  context.objectShape entries' = context.objectShape entries
  := by
  apply objectShape_congr
  intro keyword
  rw [isSome_entryFor?, isSome_entryFor?, keys.any_eq]

/-- An object has the shape of a graph object when there is an entry for the graph. -/
theorem Context.objectShape_eq_graphObject :
  context.objectShape entries = .graphObject ↔ (context.entryFor? entries .graph).isSome = true
  := by
  simp only [Context.objectShape]
  split_ifs with h
  all_goals simp [h]

end Shapes

/-! ### Values alike -/

section Values

variable {setup : Setup} {context : Context} {entries entries' : List (String × Json)}

/-- Objects with the same keys and the same local context are alike. -/
theorem Alike.of_keys (keys : (entries'.map Prod.fst).Perm (entries.map Prod.fst))
    (declared : entries'.lookup Keyword.context.text = entries.lookup Keyword.context.text) :
  Alike setup context (.object entries) (.object entries')
  := by
  refine ⟨rfl, by rfl, rfl, declared, ?_⟩
  intro own _
  apply Context.objectShape_perm keys

/-- An object with a change under one key, which is not that of the local context. -/
theorem Alike.modify {key : String} (apart : key ≠ Keyword.context.text) (change : Json → Json) :
  Alike setup context (.object entries) (.object (Entries.modify change key entries))
  := by
  apply Alike.of_keys
  · apply List.Perm.of_eq
    apply Entries.map_fst_modify
  · apply Entries.lookup_modify_of_ne apart

/-- A change under a key which is not that of the local context leaves the context of the object. -/
theorem Setup.enter_modify {key : String} {own : Context} (apart : key ≠ Keyword.context.text)
    (change : Json → Json)
    (entered : setup.enter context (entries.lookup Keyword.context.text) = .ok own) :
  setup.enter context ((Entries.modify change key entries).lookup Keyword.context.text) = .ok own
  := by
  rw [Entries.lookup_modify_of_ne apart, entered]

/-- Of two objects that are alike, both or none have a graph. -/
theorem Alike.isSome_graph (alike : Alike setup context (.object entries) (.object entries'))
    {own : Context}
    (entered : setup.enter context (entries.lookup Keyword.context.text) = .ok own) :
  (own.entryFor? entries' .graph).isSome = (own.entryFor? entries .graph).isSome
  := by
  have hshape := alike.shape own entered
  simp only [Context.shape] at hshape
  rw [Bool.eq_iff_iff, ← Context.objectShape_eq_graphObject, ← Context.objectShape_eq_graphObject,
    hshape]

/-- Arrays with first items alike. -/
theorem Alike.cons {first first' : Json} (rest : List Json)
    (isObject : first'.isObject = first.isObject) :
  Alike setup context (.array (first :: rest)) (.array (first' :: rest))
  := by
  refine ⟨rfl, by rfl, ?_, rfl, ?_⟩
  · simp [Json.holdsNodes, isObject]
  · intro own _
    rfl

/-- What is alike to an object is an object. -/
theorem Alike.exists_entries {new : Json} (alike : Alike setup context (.object entries) new) :
  ∃ entries', new = .object entries' ∧
    entries'.lookup Keyword.context.text = entries.lookup Keyword.context.text
  := by
  have hobject := alike.isObject
  cases new with
  | object entries' => use entries', rfl, alike.declared
  | _ => cases hobject

/-- What is alike to an array is an array. -/
theorem Alike.exists_items {items : List Json} {new : Json}
    (alike : Alike setup context (.array items) new) :
  ∃ items', new = .array items' ∧ items'.all Json.isObject = items.all Json.isObject
  := by
  have harray := alike.isArray.mpr rfl
  cases new with
  | array items' => use items', rfl, alike.holdsNodes
  | _ => cases harray

/-- Values alike are read alike as top-level graphs. -/
theorem Alike.production?_eq {value new : Json} (alike : Alike setup context value new) :
  TopLevelGraph.production? new = TopLevelGraph.production? value
  := by
  have hobject := alike.isObject
  have harray := alike.isArray
  cases value with
  | _ => cases new with
    | _ => simp_all [Json.isObject, Json.kind, TopLevelGraph.production?]

end Values

/-! ### Steps -/

section Steps

variable {setup : Setup}

/-- The entry for a keyword, when the value under its key is changed. -/
theorem Context.entryFor?_modify {context : Context} {entries : List (String × Json)}
    {keyword : Keyword} {key : String} {value : Json}
    (held : context.entryFor? entries keyword = some (key, value)) (change : Json → Json) :
  context.entryFor? (Entries.modify change key entries) keyword = some (key, change value)
  := by
  have h := Entries.find?_modify (fun key => context.meaning key == .keyword keyword) change key
    entries
  rw [Context.entryFor?] at held ⊢
  rw [h, held]
  simp

/-- The entry for a keyword, when the value under another key is changed. -/
theorem Context.entryFor?_modify_of_ne {context : Context} {entries : List (String × Json)}
    {keyword : Keyword} {key : String}
    (apart : ∀ entry, context.entryFor? entries keyword = some entry → entry.1 ≠ key)
    (change : Json → Json) :
  context.entryFor? (Entries.modify change key entries) keyword
    = context.entryFor? entries keyword
  := by
  have h := Entries.find?_modify (fun key => context.meaning key == .keyword keyword) change key
    entries
  rw [← Context.entryFor?, ← Context.entryFor?] at h
  rw [h]
  cases hentry : context.entryFor? entries keyword with
  | none => rfl
  | some entry => simp [apart entry hentry]

/-- The object around a template does not hold the value in its place. -/
theorem Template.around_modify (entries : List (String × Json)) (key : String)
    (template : Template) (change : Json → Json) :
  around (Entries.modify change key entries) key template = around entries key template
  := by
  rw [around, around, Entries.modify, List.map_map]
  congr 1
  apply List.map_congr_left
  intro entry _
  simp only [Function.comp_apply]
  split
  · rfl
  · rfl

/-- The match of an object around a top-level graph does not hold the value of the graph. -/
theorem TopLevelGraph.matchOf_modify (entries : List (String × Json)) (key : String)
    (change : Json → Json) :
  matchOf (Entries.modify change key entries) key = matchOf entries key
  := by
  funext contents
  rw [matchOf, matchOf, Template.around_modify, Entries.modify, List.flatMap_map]

/-- The match of a list object does not hold the value of the list. -/
theorem ListObject.matchOf_modify (entries : List (String × Json)) (key : String)
    (change : Json → Json) :
  matchOf (Entries.modify change key entries) key = matchOf entries key
  := by
  funext list
  rw [matchOf, matchOf, Template.around_modify]

/-- The match of a graph object does not hold the value of the graph. -/
theorem GraphObject.matchOf_modify {context : Context} (target : Variable)
    {entries : List (String × Json)} {key : String} {graph : Json}
    (held : context.entryFor? entries .graph = some (key, graph)) (change : Json → Json) :
  matchOf context target (Entries.modify change key entries) key
    = matchOf context target entries key
  := by
  have hid : context.entryFor? (Entries.modify change key entries) .id
      = context.entryFor? entries .id := by
    apply Context.entryFor?_modify_of_ne
    intro entry hentry
    apply Context.key_ne hentry held (by decide)
  have hshare (members : Match) (entry : String × Json) :
      shareOf context target (Entries.modify change key entries) key members entry.1
          (if entry.1 = key then change entry.2 else entry.2)
        = shareOf context target entries key members entry.1 entry.2 := by
    simp only [shareOf, identityOf, hid]
    split
    · rfl
    · rfl
  funext members
  simp only [matchOf, identityOf, hid]
  rw [Entries.modify, List.map_map, List.flatMap_map, ← Entries.modify]
  simp only [Function.comp_def, hshare]
  rfl

/-- A change of the value with which a visit goes on to one that is alike leaves a visit that goes
on in the same way, and the values of the two visits are alike. -/
theorem Leads.modify {outer inner : Visit} {make : Match → Match}
    (step : Leads setup outer inner make) {change : Json → Json}
    (alike : Alike setup inner.frame.context inner.value (change inner.value)) :
  Leads setup (outer.modify change (setup.stepsOf outer)) (inner.modify change []) make ∧
    Alike setup outer.frame.context outer.value
      (outer.value.modify change (setup.stepsOf outer))
  := by
  cases step with
  | @document entries frame context entered bare =>
      obtain ⟨entries', heq, hlookup⟩ := alike.exists_entries
      refine ⟨?_, alike⟩
      change Leads setup ⟨_, change _, _⟩ ⟨_, change _, _⟩ _
      simp only [heq]
      apply Leads.document (hlookup ▸ entered)
      have halike : Alike setup frame.context (.object entries) (.object entries') := heq ▸ alike
      rw [← Option.not_isSome_iff_eq_none, halike.isSome_graph entered, bare]
      simp
  | @documentGraph entries frame context graph entered held =>
      obtain ⟨entries', heq, hlookup⟩ := alike.exists_entries
      refine ⟨?_, alike⟩
      change Leads setup ⟨_, change _, _⟩ ⟨_, change _, _⟩ _
      simp only [heq]
      have halike : Alike setup frame.context (.object entries) (.object entries') := heq ▸ alike
      have hsome : (context.entryFor? entries' .graph).isSome = true := by
        rw [halike.isSome_graph entered, held]
        rfl
      obtain ⟨graph', hgraph⟩ := Option.isSome_iff_exists.mp hsome
      apply Leads.documentGraph (hlookup ▸ entered) hgraph
  | documents =>
      obtain ⟨items', heq, -⟩ := alike.exists_items
      refine ⟨?_, alike⟩
      change Leads setup ⟨_, change _, _⟩ ⟨_, change _, _⟩ _
      simp only [heq]
      apply Leads.documents
  | nodeObjects objects =>
      obtain ⟨items', heq, hall⟩ := alike.exists_items
      refine ⟨?_, alike⟩
      change Leads setup ⟨_, change _, _⟩ ⟨_, change _, _⟩ _
      simp only [heq]
      apply Leads.nodeObjects
      simp only [List.find?_eq_none, Bool.not_eq_true', Bool.not_eq_false,
        ← List.all_eq_true] at objects ⊢
      rw [hall, objects]
  | @items production first rest frame => exact ⟨.items, .cons rest alike.isObject⟩
  | @members first rest frame => exact ⟨.members, .cons rest alike.isObject⟩
  | @onlyMember value frame single =>
      simp only [Setup.stepsOf, single, if_false]
      refine ⟨?_, alike⟩
      apply Leads.onlyMember
      intro harray
      apply single (alike.isArray.mp harray)
  | topLevelGraph entered held chosen =>
      have apart := Context.entryFor?_key_ne held (by decide)
      simp only [Setup.stepsOf, Production.keyword?, Setup.stepTo?_eq_some entered held]
      refine ⟨?_, .modify apart change⟩
      have entered' := Setup.enter_modify apart change entered
      rw [← alike.production?_eq] at chosen
      rw [← TopLevelGraph.matchOf_modify _ _ change]
      apply Leads.topLevelGraph entered' (Context.entryFor?_modify held change) chosen
  | entryValue entered chosen =>
      refine ⟨?_, alike⟩
      change Leads setup ⟨_, change _, _⟩ ⟨_, change _, _⟩ _
      rw [← alike.shape _ entered] at chosen
      apply Leads.entryValue (alike.declared ▸ entered) chosen
  | listObject entered held =>
      have apart := Context.entryFor?_key_ne held (by decide)
      simp only [Setup.stepsOf, Production.keyword?, Setup.stepTo?_eq_some entered held]
      refine ⟨?_, .modify apart change⟩
      have entered' := Setup.enter_modify apart change entered
      rw [← ListObject.matchOf_modify _ _ change]
      apply Leads.listObject entered' (Context.entryFor?_modify held change)
  | graphObject entered held =>
      have apart := Context.entryFor?_key_ne held (by decide)
      simp only [Setup.stepsOf, Production.keyword?, Setup.stepTo?_eq_some entered held]
      refine ⟨?_, .modify apart change⟩
      have entered' := Setup.enter_modify apart change entered
      rw [← GraphObject.matchOf_modify _ held change]
      apply Leads.graphObject entered' (Context.entryFor?_modify held change)
  | graphNodes objects =>
      obtain ⟨items', heq, hall⟩ := alike.exists_items
      refine ⟨?_, alike⟩
      change Leads setup ⟨_, change _, _⟩ ⟨_, change _, _⟩ _
      simp only [heq]
      apply Leads.graphNodes (hall.trans objects)
  | graphNode =>
      obtain ⟨entries', heq, -⟩ := alike.exists_entries
      refine ⟨?_, alike⟩
      change Leads setup ⟨_, change _, _⟩ ⟨_, change _, _⟩ _
      simp only [heq]
      apply Leads.graphNode
  | graphValue => exact ⟨.graphValue, alike⟩

/-- A change within a value leaves its shape. -/
theorem Context.shape_modify (context : Context) (value : Json) (change : Json → Json)
    (step : Step) (path : List Step) :
  context.shape (value.modify change (step :: path)) = context.shape value
  := by
  cases value with
  | object entries =>
      cases step with
      | key name => apply Context.objectShape_perm (.of_eq (Entries.map_fst_modify _ _ _))
      | index position => rfl
  | _ =>
      cases step with
      | _ => rfl

end Steps

/-! ### Entries of node objects -/

namespace NodeObject

variable {setup : Setup} {frame : Frame} {context inner : Context}
  {before after : List (String × Json)} {row : Row} {link : Link}

/-- A share does not tell values alike from each other. -/
theorem Link.share_alike {value new : Json} (alike : Alike setup inner value new) (link : Link)
    (subject : Term) (key : String) (item : Match) :
  link.share subject key (inner.shape new) item = link.share subject key (inner.shape value) item
  := by
  have hobject := alike.isObject
  have harray := alike.isArray
  have hshape := alike.shape
  cases value with
  | object entries =>
      obtain ⟨entries', rfl, -⟩ := alike.exists_entries
      obtain ⟨hnull, hlist⟩ := inner.shape_object_ne entries
      obtain ⟨hnull', hlist'⟩ := inner.shape_object_ne entries'
      simp [share, isOptional, hnull, hlist, hnull', hlist']
  | _ => rw [hshape inner rfl]

/-- A node object with an entry with a link has a branch for the entry.  Where the value of the
entry is replaced by one that is alike and has a match, the node object has the match with that one
in its place. -/
theorem LinkedAt.exists_replace (linked : LinkedAt setup frame context before row after link inner)
    {found : Match}
    (h : setup.run ⟨.production .nodeObject, .object (before ++ row.entry :: after), frame⟩
      = .ok found) :
  ∃ earlier item log later,
    Reads setup (before ++ row.entry :: after) frame context
        (earlier ++ .linked row link inner item log :: later) ∧
      Visited setup (earlier ++ .linked row link inner item log :: later) ∧
      found = matchOf context frame.target (before ++ row.entry :: after)
        (earlier ++ .linked row link inner item log :: later) ∧
      ∀ value item', Alike setup inner row.value value →
        setup.run (link.visit inner value) = .ok item' →
        setup.run ⟨.production .nodeObject, .object (before ++ (row.key, value) :: after), frame⟩
          = .ok (matchOf context frame.target (before ++ row.entry :: after)
              (earlier ++ .linked row link inner item' log :: later))
  := by
  obtain ⟨trace, derived⟩ := exists_derives _ _ h
  obtain ⟨context', branches, reads, visited, rfl⟩ := exists_reads derived
  obtain ⟨rfl, earlier, item, log, later, rfl, rfl, rfl⟩ := linked.exists_branches reads
  refine ⟨earlier, item, log, later, reads, visited, rfl, ?_⟩
  intro value item' alike hitem
  have reads' := reads.replace value item' log (by
    rw [Row.entry, lookup_skip linked.key_ne, lookup_skip linked.key_ne])
  have hrun := reads'.run (by
    intro row' link' inner' other trace hbranch
    simp only [List.mem_append, List.mem_cons] at hbranch
    rcases hbranch with hbranch | hbranch | hbranch
    · apply (visited row' link' inner' other trace (by simp [hbranch])).run
    · obtain ⟨rfl, rfl, rfl, rfl, rfl⟩ := Branch.linked.inj hbranch
      apply hitem
    · apply (visited row' link' inner' other trace (by simp [hbranch])).run)
  have hscope := (linked.scopeOf_skip value).trans (linked.scopeOf_skip row.value).symm
  have hshare (scope : Scope) :
      (Branch.linked { row with value := value } link inner item' log).share scope
        = (Branch.linked row link inner item' log).share scope := by
    apply Link.share_alike alike
  rw [hrun, matchOf, matchOf, hscope, List.map_append, List.map_append, List.map_cons,
    List.map_cons, hshare]
  rfl

end NodeObject

/-! ### The matches around a change -/

/-- Whether a relation between two matches of a value, given the path to it, holds of the matches of
what is around the value. -/
structure Carries (setup : Setup) (last : Visit) (R : List Step → Match → Match → Prop) : Prop where
  lead : ∀ {outer inner : Visit} {make : Match → Match} {path : List Step} {item item' : Match},
    Leads setup outer inner make → outer.value.hasDistinctKeys = true →
    Comes setup inner path last → setup.run inner = .ok item → R path item item' →
    R (setup.stepsOf outer ++ path) (make item) (make item')
  node : ∀ {entries : List (String × Json)} {frame : Frame} {context : Context}
    {earlier later : List NodeObject.Branch} {row : NodeObject.Row} {link : NodeObject.Link}
    {inner : Context} {path : List Step} {item item' : Match} {log : Log},
    NodeObject.Reads setup entries frame context
      (earlier ++ .linked row link inner item log :: later) →
    NodeObject.Visited setup (earlier ++ .linked row link inner item log :: later) →
    (Json.object entries).hasDistinctKeys = true →
    Comes setup (link.visit inner row.value) path last → R path item item' →
    R (.key row.key :: path)
      (NodeObject.matchOf context frame.target entries
        (earlier ++ .linked row link inner item log :: later))
      (NodeObject.matchOf context frame.target entries
        (earlier ++ .linked row link inner item' log :: later))

/-- Whether the links that lead straight to the value at a path read another value by the same
task. -/
def Setup.ReadsAlike (setup : Setup) (outer : Visit) (path : List Step) (value new : Json) : Prop :=
  ∀ ⦃front frame context before row after link inner⦄,
    Comes setup outer front
      ⟨.production .nodeObject, .object (before ++ row.entry :: after), frame⟩ →
    LinkedAt setup frame context before row after link inner → path = front ++ [.key row.key] →
    row.value = value → link.task (inner.shape new) = link.task (inner.shape value)

namespace Setup.ReadsAlike

variable {setup : Setup} {outer : Visit} {path : List Step} {value new : Json}

/-- Values of the same shape in every context are read by the same task. -/
theorem of_shape (same : ∀ context : Context, context.shape new = context.shape value) :
  setup.ReadsAlike outer path value new
  := by
  intro _ _ _ _ _ _ link inner _ _ _ _
  rw [same]

end Setup.ReadsAlike

/-- Whether the links whose visits come straight to a visit, at a path, read another value by the
same task as its value. -/
def Setup.SeesAlike (setup : Setup) (outer : Visit) (path : List Step) (last : Visit) (new : Json) :
    Prop :=
  ∀ ⦃front frame context before row after link inner⦄,
    Comes setup outer front
      ⟨.production .nodeObject, .object (before ++ row.entry :: after), frame⟩ →
    LinkedAt setup frame context before row after link inner → path = front ++ [.key row.key] →
    Comes setup (link.visit inner row.value) [] last →
    link.task (inner.shape new) = link.task (inner.shape last.value)

namespace Setup.SeesAlike

variable {setup : Setup} {outer last : Visit} {path : List Step} {new : Json}

theorem of_lead {inner : Visit} {make : Match → Match} (step : Leads setup outer inner make)
    (h : setup.SeesAlike outer (setup.stepsOf outer ++ path) last new) :
  setup.SeesAlike inner path last new
  := by
  intro front _ _ _ _ _ _ _ comes linked hpath
  apply h (.lead step comes) linked
  rw [hpath, List.append_assoc]

theorem of_entry {frame : Frame} {context inner : Context} {before after : List (String × Json)}
    {row : NodeObject.Row} {link : NodeObject.Link}
    (linked : LinkedAt setup frame context before row after link inner)
    (h : setup.SeesAlike
      ⟨.production .nodeObject, .object (before ++ row.entry :: after), frame⟩
      (.key row.key :: path) last new) :
  setup.SeesAlike (link.visit inner row.value) path last new
  := by
  intro front _ _ _ _ _ _ _ comes linked' hpath
  apply h (.entry linked comes) linked'
  rw [hpath, List.cons_append]

end Setup.SeesAlike

/-- When the value of a visit is replaced by one that is alike, and its match by a related one, the
same happens around it.  A term with a container has to see the shape of the value as before. -/
theorem Comes.transfer_of_sees {setup : Setup} {outer last : Visit} {path : List Step}
    {R : List Step → Match → Match → Prop} {change : Json → Json} {found : Match}
    (comes : Comes setup outer path last) (carries : Carries setup last R)
    (distinct : outer.value.hasDistinctKeys = true)
    (alike : Alike setup last.frame.context last.value (change last.value))
    (known : ∀ {item}, setup.run last = .ok item →
      ∃ item', setup.run (last.modify change []) = .ok item' ∧ R [] item item')
    (seen : setup.SeesAlike outer path last (change last.value))
    (h : setup.run outer = .ok found) :
  Alike setup outer.frame.context outer.value (outer.value.modify change path) ∧
    ∃ found', setup.run (outer.modify change path) = .ok found' ∧ R path found found'
  := by
  induction comes generalizing found with
  | here => exact ⟨alike, known h⟩
  | @lead outer inner last make path step comes ih =>
      obtain ⟨item, hitem, rfl⟩ := step.run_eq_ok.mp h
      obtain ⟨halike, item', hitem', hrelated⟩ := ih carries (step.hasDistinctKeys distinct)
        alike known (seen.of_lead step) hitem
      obtain ⟨step', halike'⟩ := step.modify halike
      have hmodify (visit : Visit) (front rest : List Step) :
          visit.modify change (front ++ rest) = visit.modify (Json.modify change rest) front := by
        rw [Visit.modify, Visit.modify, Json.modify_append]
      rw [Json.modify_append, hmodify]
      use halike', make item', step'.run_eq_ok.mpr ⟨item', hitem', rfl⟩
      apply carries.lead step distinct comes hitem hrelated
  | @entry frame context inner before after row link path last linked comes ih =>
      have hvalue : row.value.hasDistinctKeys = true :=
        (Json.hasDistinctKeys_object.mp distinct).2 (row.key, row.value)
          (List.mem_append_right _ List.mem_cons_self)
      obtain ⟨earlier, item, log, later, reads, visited, rfl, replaced⟩ :=
        linked.exists_replace h
      have hitem := (visited row link inner item log (by simp)).run
      obtain ⟨halike, item', hitem', hrelated⟩ := ih carries hvalue alike known
        (seen.of_entry linked) hitem
      have htask : link.task (inner.shape (row.value.modify change path))
          = link.task (inner.shape row.value) := by
        cases path with
        | nil =>
            have hlast : row.value = last.value := Option.some.inj (comes.at? hvalue)
            rw [hlast]
            apply seen .here linked rfl comes
        | cons step path => rw [Context.shape_modify]
      have hvisit : (link.visit inner row.value).modify change path
          = link.visit inner (row.value.modify change path) := by
        rw [Visit.modify, NodeObject.Link.visit, NodeObject.Link.visit, htask]
      rw [hvisit] at hitem'
      have hrun := replaced (row.value.modify change path) item' halike hitem'
      rw [← Json.modify_entry distinct] at hrun
      refine ⟨?_, _, hrun, carries.node reads visited distinct comes hrelated⟩
      apply Alike.modify linked.key_ne

/-- The same, when all links at the path that lead straight to such a value read the other one by
the same task. -/
theorem Comes.transfer {setup : Setup} {outer last : Visit} {path : List Step}
    {R : List Step → Match → Match → Prop} {change : Json → Json} {found : Match}
    (comes : Comes setup outer path last) (carries : Carries setup last R)
    (distinct : outer.value.hasDistinctKeys = true)
    (alike : Alike setup last.frame.context last.value (change last.value))
    (known : ∀ {item}, setup.run last = .ok item →
      ∃ item', setup.run (last.modify change []) = .ok item' ∧ R [] item item')
    (seen : setup.ReadsAlike outer path last.value (change last.value))
    (h : setup.run outer = .ok found) :
  Alike setup outer.frame.context outer.value (outer.value.modify change path) ∧
    ∃ found', setup.run (outer.modify change path) = .ok found' ∧ R path found found'
  := by
  apply comes.transfer_of_sees carries distinct alike known _ h
  intro front frame context before row after link inner comes' linked hpath straight
  apply seen comes' linked hpath (straight.of_nil rfl).1.symm

end LinkedQuery
