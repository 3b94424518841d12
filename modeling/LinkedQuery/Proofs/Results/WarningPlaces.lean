import LinkedQuery.Proofs.Reading.Warnings
import LinkedQuery.Proofs.Results.Erasure

/-!
# The places of warnings

The path of a warning leads to a value of the document, and in the template to the node that was
made of this value.  Every production sees the paths of its parts from the value that it reads
itself, so a path grows by the step that leads to the part and by nothing else.
-/

namespace LinkedQuery

variable {setup : Setup}

/-! ### Paths -/

/-- Whether a path leads somewhere in a value and in a template. -/
def Located (value : Json) (template : Template) (path : List Step) : Prop :=
  (∃ part, value.at? path = some part) ∧ ∃ node, template.at? path = some node

theorem Located.whole (value : Json) (template : Template) :
  Located value template []
  := ⟨⟨value, rfl⟩, template, rfl⟩

/-- A path within a part is one within the whole, behind the step to the part. -/
theorem Located.within {value part : Json} {template node : Template} {step : Step}
    {path : List Step} (hpart : value.part? step = some part)
    (hnode : template.part? step = some node) (h : Located part node path) :
  Located value template (step :: path)
  := by
  obtain ⟨⟨inner, hinner⟩, item, hitem⟩ := h
  constructor
  · use inner
    rw [Json.at?, hpart, Option.bind_some, hinner]
  · use item
    rw [Template.at?, hnode, Option.bind_some, hitem]

/-- The steps from a template to its entries. -/
theorem Template.part?_object {α : Type} {members : List α} {name : α → String}
    {template : α → Template} (distinct : (members.map name).Nodup) {member : α}
    (held : member ∈ members) :
  (Template.object (members.map fun member => (name member, template member))).part?
      (.key (name member)) = some (template member)
  := by
  apply (Entries.lookup_eq_some_iff _).mpr
  · exact List.mem_map_of_mem held
  · simpa [Function.comp_def] using distinct

/-! ### Cuts -/

/-- Under the same keys in the same order the values for a key stand in the same place. -/
theorem Entries.mem_zip_of_lookup {α β : Type} {entries : List (String × α)}
    {entries' : List (String × β)} {key : String} {value : α} {value' : β}
    (keys : entries.map Prod.fst = entries'.map Prod.fst)
    (h : entries.lookup key = some value) (h' : entries'.lookup key = some value') :
  ((key, value), (key, value')) ∈ entries.zip entries'
  := by
  induction entries generalizing entries' with
  | nil => cases h
  | cons entry entries ih =>
      obtain ⟨name, first⟩ := entry
      cases entries' with
      | nil => cases h'
      | cons entry' entries' =>
          obtain ⟨name', first'⟩ := entry'
          rw [List.map_cons, List.map_cons, List.cons.injEq] at keys
          obtain ⟨rfl, keys⟩ := keys
          rw [List.lookup_cons] at h h'
          rw [List.zip_cons_cons, List.mem_cons]
          cases hname : key == name with
          | true =>
              obtain rfl : key = name := eq_of_beq hname
              simp only [beq_self_eq_true] at h h'
              rw [Option.some.inj h, Option.some.inj h']
              exact .inl rfl
          | false =>
              simp only [hname] at h h'
              exact .inr (ih keys h h')

/-- A change to all values of entries is one to the value that is looked up. -/
theorem Entries.lookup_map {α β : Type} (change : α → β) (entries : List (String × α))
    (key : String) :
  (entries.map fun entry => (entry.1, change entry.2)).lookup key
    = (entries.lookup key).map change
  := by
  induction entries with
  | nil => rfl
  | cons entry entries ih =>
      rw [List.map_cons, List.lookup_cons, List.lookup_cons]
      split
      · rfl
      · exact ih

/-- The parts of a value are cut where the value is. -/
theorem Json.Cut.part? {value shorter part part' : Json} {step : Step} (cut : Cut value shorter)
    (h : value.part? step = some part) (h' : shorter.part? step = some part') :
  Cut part part'
  := by
  cases cut with
  | same =>
      rw [h, Option.some.injEq] at h'
      rw [h']
      exact .same part'
  | first rest cut =>
      cases step with
      | key name => cases h
      | index position =>
          cases position with
          | zero =>
              obtain rfl := Option.some.inj h
              obtain rfl := Option.some.inj h'
              exact cut
          | succ position => cases h'
  | object keys cut =>
      cases step with
      | key name => exact cut _ (Entries.mem_zip_of_lookup keys h h')
      | index position => cases h

/-- The part of a template is erased with it. -/
theorem Template.part?_erase {template node : Template} {step : Step}
    (h : template.part? step = some node) :
  template.erase.part? step = some node.erase
  := by
  cases template with
  | object entries =>
      cases step with
      | key name =>
          rw [erase_object, Json.part?, Entries.lookup_map]
          exact congrArg (Option.map erase) h
      | index position => cases h
  | array v item =>
      cases step with
      | key name => cases h
      | index position =>
          cases position with
          | zero =>
              obtain rfl := Option.some.inj h
              rw [erase]
              rfl
          | succ position => cases h
  | _ =>
      cases step with
      | key name => cases h
      | index position => cases h

/-- The node at the end of a path is made of the value at its end. -/
theorem Json.Cut.at? {value part : Json} {template node : Template} {path : List Step}
    (cut : Cut value template.erase) (hpart : value.at? path = some part)
    (hnode : template.at? path = some node) :
  Cut part node.erase
  := by
  induction path generalizing value template with
  | nil =>
      obtain rfl := Option.some.inj hpart
      obtain rfl := Option.some.inj hnode
      exact cut
  | cons step path ih =>
      rw [Json.at?, Option.bind_eq_some_iff] at hpart
      rw [Template.at?, Option.bind_eq_some_iff] at hnode
      obtain ⟨next, hnext, hpart⟩ := hpart
      obtain ⟨child, hchild, hnode⟩ := hnode
      apply ih _ hpart hnode
      exact cut.part? hnext (Template.part?_erase hchild)

/-! ### Objects -/

section Objects

variable {entries : List (String × Json)} {warning : Warning}

theorem Json.part?_object {key : String} {value : Json} (distinct : (entries.map Prod.fst).Nodup)
    (held : (key, value) ∈ entries) :
  (Json.object entries).part? (.key key) = some value
  := (Entries.lookup_eq_some_iff distinct).mpr held

/-- An object around a template has a node for each of its entries. -/
theorem Template.part?_around {key : String} {template : Template} {entry : String × Json}
    (distinct : (entries.map Prod.fst).Nodup) (hentry : entry ∈ entries) :
  (around entries key template).part? (.key entry.1)
    = some (if entry.1 = key then template else .value entry.2)
  := part?_object distinct hentry

/-- An entry is reached where the template has a node for it. -/
theorem Located.entry {template node : Template} {key : String} {value : Json}
    (distinct : (entries.map Prod.fst).Nodup) (held : (key, value) ∈ entries)
    (hnode : template.part? (.key key) = some node) :
  Located (.object entries) template [.key key]
  := .within (Json.part?_object distinct held) hnode (.whole _ _)

/-- The warnings about a value object are at it or at one of its entries. -/
theorem ValueObject.located {context : Context} {target : Variable} {key : String} {value : Json}
    (distinct : (entries.map Prod.fst).Nodup)
    (valued : context.entryFor? entries .value = some (key, value))
    (h : warning ∈ (matchOf context target entries key value).warnings) :
  Located (.object entries) (matchOf context target entries key value).template warning.path
  := by
  cases known : value.isPlaceholder with
  | true =>
      have hpath : warning.path = [] := by
        rw [matchOf, if_pos known] at h
        simp only at h
        split at h
        · rw [List.mem_singleton.mp h]
        · cases h
      rw [hpath]
      apply Located.whole
  | false =>
      have at_entry {entry : String × Json} (hentry : entry ∈ entries) :
          Located (.object entries) (matchOf context target entries key value).template
            [.key entry.1] := by
        simp only [matchOf, known, Bool.false_eq_true, if_false]
        exact .entry distinct hentry (Template.part?_around distinct hentry)
      simp only [matchOf, known, Bool.false_eq_true, if_false, List.mem_append, mem_datatypeIn,
        mem_constantOf] at h
      rcases h with ⟨typeKey, type, typed, -, rfl⟩
        | ⟨languageKey, tag, text, spoken, -, -, rfl⟩ | ⟨-, rfl⟩
      · exact at_entry (Context.mem_of_entryFor? typed)
      · exact at_entry (Context.mem_of_entryFor? spoken)
      · exact at_entry (Context.mem_of_entryFor? valued)

/-- The warnings of an object are reached when those about the entry that is read are, and the
others are at their entries. -/
theorem Located.of_entries {template : String × Json → Template} {f : String × Json → List Warning}
    {key : String} {value : Json} {warnings : List Warning}
    (distinct : (entries.map Prod.fst).Nodup) (held : (key, value) ∈ entries)
    (own : f (key, value) = nestAll (.key key) warnings)
    (others : ∀ entry ∈ entries, entry.1 ≠ key → OnceAt [.key entry.1] (f entry))
    (within : ∀ warning ∈ warnings, Located value (template (key, value)) warning.path)
    (h : warning ∈ entries.flatMap f) :
  Located (.object entries) (.object (entries.map fun entry => (entry.1, template entry)))
    warning.path
  := by
  obtain ⟨entry, hentry, hwarning⟩ := List.mem_flatMap.mp h
  by_cases hkey : entry.1 = key
  · rw [eq_of_key_eq distinct hentry held hkey, own] at hwarning
    obtain ⟨inner, hinner, rfl⟩ := List.mem_map.mp hwarning
    exact .within (Json.part?_object distinct held) (Template.part?_object distinct held)
      (within inner hinner)
  · rw [(others entry hentry hkey).path_eq hwarning]
    exact .entry distinct hentry (Template.part?_object distinct hentry)

end Objects

/-! ### Visits -/

/-- The warnings about a value that leads to no other are at it or at one of its entries. -/
theorem Ends.located {visit : Visit} {found : Match} (last : Ends setup visit found)
    (distinct : visit.value.hasDistinctKeys = true) {warning : Warning}
    (h : warning ∈ found.warnings) :
  Located visit.value found.template warning.path
  := by
  by_cases htask : visit.task = .production .valueObject
  · cases last with
    | valueObject entered valued =>
        exact ValueObject.located (Json.hasDistinctKeys_object.mp distinct).1 valued h
    | _ => cases htask
  · rw [(last.onceAt htask).path_eq h]
    apply Located.whole

/-- The warnings about a value that leads to another are at places of the other, and beside it. -/
theorem Leads.located {outer inner : Visit} {make : Match → Match} {found : Match}
    (step : Leads setup outer inner make) (distinct : outer.value.hasDistinctKeys = true)
    (within : ∀ warning ∈ found.warnings, Located inner.value found.template warning.path)
    {warning : Warning} (h : warning ∈ (make found).warnings) :
  Located outer.value (make found).template warning.path
  := by
  cases step with
  | document | documentGraph | documents | nodeObjects | entryValue | graphNodes | graphNode
  | graphValue | onlyMember => apply within _ h
  | items | members =>
      obtain ⟨inner, hinner, rfl⟩ := List.mem_map.mp h
      exact .within rfl rfl (within inner hinner)
  | topLevelGraph entered held chosen =>
      have hkeys := (Json.hasDistinctKeys_object.mp distinct).1
      apply Located.of_entries hkeys (Context.mem_of_entryFor? held) (if_pos rfl) _ _ h
      · intro entry _ hkey
        rw [if_neg hkey]
        apply TopLevelGraph.onceAt_otherWarnings
      · rw [if_pos rfl]
        exact within
  | listObject entered held =>
      have hkeys := (Json.hasDistinctKeys_object.mp distinct).1
      have hheld := Context.mem_of_entryFor? held
      obtain ⟨inner, hinner, rfl⟩ := List.mem_map.mp h
      apply Located.within (Json.part?_object hkeys hheld) _ (within inner hinner)
      rw [ListObject.matchOf, Template.part?_around hkeys hheld, if_pos rfl]
  | @graphObject entries frame context key graph entered held =>
      have hkeys := (Json.hasDistinctKeys_object.mp distinct).1
      have hown : GraphObject.shareOf context frame.target entries key found key graph
          = { template := found.template, warnings := nestAll (.key key) found.warnings } :=
        if_pos rfl
      apply Located.of_entries hkeys (Context.mem_of_entryFor? held)
        (congrArg GraphObject.Share.warnings hown) _ _ h
      · intro entry _ hkey
        apply GraphObject.onceAt_shareOf hkey
      · simp only [hown]
        exact within

/-- The warnings about a node object are at its entries, and within the values of its links. -/
theorem NodeObject.Reads.located {entries : List (String × Json)} {frame : Frame}
    {context : Context} {branches : List NodeObject.Branch}
    (reads : NodeObject.Reads setup entries frame context branches)
    (distinct : (entries.map Prod.fst).Nodup)
    (within : ∀ row link inner item log, Branch.linked row link inner item log ∈ branches →
      ∀ warning ∈ item.warnings, Located row.value item.template warning.path)
    {warning : Warning}
    (h : warning ∈ (NodeObject.matchOf context frame.target entries branches).warnings) :
  Located (.object entries) (NodeObject.matchOf context frame.target entries branches).template
    warning.path
  := by
  simp only [matchOf, assemble, List.flatMap_map, List.mem_flatMap] at h
  obtain ⟨branch, hbranch, hwarning⟩ := h
  have hheld := reads.mem_entries hbranch
  have hnode : (NodeObject.matchOf context frame.target entries branches).template.part?
      (.key branch.row.key)
        = some (branch.share (scopeOf context frame.target entries)).template := by
    rw [reads.map_key] at distinct
    simp only [matchOf, assemble, List.map_map]
    exact Template.part?_object distinct hbranch
  cases branch with
  | plain row =>
      rw [(row.onceAt_plainShare _).path_eq hwarning]
      exact .entry distinct hheld hnode
  | linked row link inner item log =>
      obtain ⟨about, habout, rfl⟩ := List.mem_map.mp hwarning
      exact .within (Json.part?_object distinct hheld) hnode
        (within row link inner item log hbranch about habout)

/-- The warnings of a match are at places of its value and of its template. -/
theorem Derives.located {visit : Visit} {found : Match} {log : Log}
    (derived : Derives setup visit found log) (distinct : visit.value.hasDistinctKeys = true) :
  ∀ warning ∈ found.warnings, Located visit.value found.template warning.path
  := by
  induction derived with
  | ends last =>
      intro warning h
      exact last.located distinct h
  | leads step read ih =>
      intro warning h
      exact step.located distinct (ih (step.hasDistinctKeys distinct)) h
  | node reads read ih =>
      intro warning h
      apply reads.located (Json.hasDistinctKeys_object.mp distinct).1 _ h
      intro row link inner item log hbranch
      exact ih row link inner item log hbranch (reads.hasDistinctKeys distinct hbranch)

/-! ### Queries -/

/-- The path of every warning leads to a value of the document, and in the template to the node that
was made of it: erasing the variables of the node gives the value back, with arrays cut down to
their first items. -/
theorem warning_located {document : Json} {query : Query}
    (distinct : document.hasDistinctKeys = true) (h : setup.grammar.query document = .ok query)
    (warning : Warning) (hwarning : warning ∈ query.warnings) :
  ∃ part node, document.at? warning.path = some part ∧
    query.template.at? warning.path = some node ∧ Json.Cut part node.erase
  := by
  obtain ⟨found, log, derived, rfl⟩ := query_eq_ok.mp h
  obtain ⟨⟨part, hpart⟩, node, hnode⟩ := derived.located distinct warning hwarning
  use part, node, hpart, hnode
  exact (derived.cut distinct).at? hpart hnode

/-- A ship with a list of its stops, of which the first has no port. -/
def voyage : Json :=
  .object
    [("@context", .object [("stops", .string "@list")]),
      ("ex:ships", .array
        [.object [("ex:route", .object
          [("stops", .array [.object [("ex:port", .null)], .object [("ex:port", .string "?")]])])]])]

/-- The missing port is warned about where it is, in the first stop of the first ship. -/
theorem warning_located_voyage :
  ∃ query part node, ({} : Setup).grammar.query voyage = .ok query
    ∧ query.warnings.map Warning.pathText = ["/ex:ships/0/ex:route/stops/0/ex:port"]
    ∧ (∃ warning ∈ query.warnings, voyage.at? warning.path = some part
      ∧ query.template.at? warning.path = some node) ∧ Json.Cut part node.erase
  := by
  have houtcome : (({} : Setup).grammar.query voyage).toOption.map
      (fun query => query.warnings.map Warning.pathText)
        = some ["/ex:ships/0/ex:route/stops/0/ex:port"] := by
    decide +kernel
  obtain ⟨query, h, hpaths⟩ := exists_of_outcome _ _ houtcome
  obtain ⟨warning, hwarnings, -⟩ := List.map_eq_singleton_iff.mp hpaths
  have hwarning : warning ∈ query.warnings := by
    rw [hwarnings]
    exact List.mem_singleton_self warning
  obtain ⟨part, node, hpart, hnode, cut⟩ := warning_located (by decide) h warning hwarning
  exact ⟨query, part, node, h, hpaths, ⟨warning, hwarning, hpart, hnode⟩, cut⟩

end LinkedQuery
