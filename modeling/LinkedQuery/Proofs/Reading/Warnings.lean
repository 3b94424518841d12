import LinkedQuery.Proofs.Reading.Place

/-!
# The places of warnings

Warnings about the entries of an object are at their keys, and those about the value to which a
visit leads are at its place.  So whether a path is `Warned` about can be told from the match of the
visit to the value on the path.
-/

namespace LinkedQuery

/-- Whether some warning is about what is at a path, or about something around it. -/
def Warned (warnings : List Warning) (path : List Step) : Prop :=
  ∃ warning ∈ warnings, warning.path <+: path

section Lists

variable {warnings more : List Warning} {path : List Step} {step first : Step}

@[simp]
theorem not_warned_nil :
  ¬ Warned [] path
  := by
  simp [Warned]

@[simp]
theorem warned_append :
  Warned (warnings ++ more) path ↔ Warned warnings path ∨ Warned more path
  := by
  simp only [Warned, List.mem_append, or_and_right, exists_or]

/-- A warning about the whole is about every part. -/
@[simp]
theorem warned_whole {notice : Notice} :
  Warned [⟨notice, []⟩] path
  := ⟨_, List.mem_singleton_self _, List.nil_prefix⟩

@[simp]
theorem warned_atKey {notice : Notice} {key name : String} :
  Warned [.atKey notice key] (.key name :: path) ↔ key = name
  := by
  simp [Warned, Warning.atKey, List.cons_prefix_cons]

/-- Warnings that are seen from the parent are about one part. -/
@[simp]
theorem warned_nestAll :
  Warned (nestAll step warnings) (first :: path) ↔ step = first ∧ Warned warnings path
  := by
  simp only [Warned, nestAll, List.mem_map, exists_exists_and_eq_and, Warning.nest,
    List.cons_prefix_cons]
  constructor
  · rintro ⟨warning, hmem, hstep, hprefix⟩
    exact ⟨hstep, warning, hmem, hprefix⟩
  · rintro ⟨hstep, warning, hmem, hprefix⟩
    exact ⟨warning, hmem, hstep, hprefix⟩

theorem warned_flatMap {α : Type} {items : List α} {f : α → List Warning} :
  Warned (items.flatMap f) path ↔ ∃ item ∈ items, Warned (f item) path
  := by
  simp only [Warned, List.mem_flatMap]
  constructor
  · rintro ⟨warning, ⟨item, hitem, hmem⟩, hprefix⟩
    exact ⟨item, hitem, warning, hmem, hprefix⟩
  · rintro ⟨item, hitem, warning, hmem, hprefix⟩
    exact ⟨warning, ⟨item, hitem, hmem⟩, hprefix⟩

/-- Warnings that are all at one key are about nothing under another. -/
theorem eq_of_warned {key name : String}
    (heads : ∀ warning ∈ warnings, warning.path.head? = some (.key key))
    (h : Warned warnings (.key name :: path)) :
  key = name
  := by
  obtain ⟨warning, hmem, hprefix⟩ := h
  obtain ⟨rest, hpath⟩ := List.head?_eq_some_iff.mp (heads warning hmem)
  rw [hpath, List.cons_prefix_cons] at hprefix
  exact Step.key.inj hprefix.1

/-- When the warnings about each item are at a key of its own, those under a key are the ones about
its item. -/
theorem warned_flatMap_key {α : Type} {items : List α} {name : α → String}
    {f : α → List Warning}
    (heads : ∀ item ∈ items, ∀ warning ∈ f item, warning.path.head? = some (.key (name item)))
    (distinct : (items.map name).Nodup) {item : α} (held : item ∈ items) :
  Warned (items.flatMap f) (.key (name item) :: path) ↔ Warned (f item) (.key (name item) :: path)
  := by
  rw [warned_flatMap]
  constructor
  · rintro ⟨other, hother, h⟩
    have hsame := eq_of_warned (heads other hother) h
    obtain rfl := List.inj_on_of_nodup_map distinct hother held hsame
    exact h
  · intro h
    exact ⟨item, held, h⟩

end Lists

/-- Whether there is at most one warning, and that about the value at a path. -/
def OnceAt (path : List Step) (warnings : List Warning) : Prop :=
  warnings = [] ∨ ∃ notice, warnings = [⟨notice, path⟩]

namespace OnceAt

variable {path : List Step} {warnings : List Warning} {warning : Warning}

theorem nil :
  OnceAt path []
  := .inl rfl

theorem single (notice : Notice) :
  OnceAt path [⟨notice, path⟩]
  := .inr ⟨notice, rfl⟩

theorem length_le_one (once : OnceAt path warnings) :
  warnings.length ≤ 1
  := by
  rcases once with rfl | ⟨notice, rfl⟩
  · exact Nat.zero_le 1
  · exact Nat.le_refl 1

theorem path_eq (once : OnceAt path warnings) (h : warning ∈ warnings) :
  warning.path = path
  := by
  rcases once with rfl | ⟨notice, rfl⟩
  · cases h
  · rw [List.mem_singleton.mp h]

end OnceAt

/-- Warnings that are seen from the parent begin with the step to it. -/
theorem head?_path_nestAll {step : Step} {warnings : List Warning} {warning : Warning}
    (h : warning ∈ nestAll step warnings) :
  warning.path.head? = some step
  := by
  obtain ⟨inner, -, rfl⟩ := List.mem_map.mp h
  rfl

/-! ### Objects -/

/-- An entry beside the members of a graph object has at most one warning. -/
theorem GraphObject.onceAt_shareOf {context : Context} {target : Variable}
    {entries : List (String × Json)} {graphKey : String} {members : Match} {key : String}
    {value : Json} (apart : key ≠ graphKey) :
  OnceAt [.key key] (shareOf context target entries graphKey members key value).warnings
  := by
  rw [shareOf, if_neg apart]
  split
  · simp only [idShare]
    split
    · exact .nil
    · exact .single _
    · exact .nil
  · simp only [otherShare]
    split
    · exact .nil
    · exact .single _
    · exact .single _

/-- The warnings about an entry of a graph object are at its key. -/
theorem GraphObject.head?_path {context : Context} {target : Variable}
    {entries : List (String × Json)} {graphKey : String} {members : Match} {key : String}
    {value : Json} {warning : Warning}
    (h : warning ∈ (shareOf context target entries graphKey members key value).warnings) :
  warning.path.head? = some (.key key)
  := by
  by_cases hkey : key = graphKey
  · rw [shareOf, if_pos hkey] at h
    apply head?_path_nestAll h
  · rw [(onceAt_shareOf hkey).path_eq h]
    rfl

/-- The only value with a text is a string. -/
theorem Json.string?_eq_some {value : Json} {text : String} :
  value.string? = some text ↔ value = .string text
  := by
  cases value with
  | string other => simp [string?]
  | _ => simp [string?]

namespace ValueObject

variable {context : Context} {target : Variable} {entries : List (String × Json)}
  {key valueKey : String} {value : Json} {path : List Step} {warning : Warning}

/-- The warning about a type is at its key. -/
theorem mem_datatypeIn :
  warning ∈ (datatypeIn context entries).2
    ↔ ∃ key type, context.entryFor? entries .type = some (key, type) ∧
      type.string?.bind (context.validIri? · true) = none ∧
      warning = .atKey .unusableDatatype key
  := by
  rw [datatypeIn]
  cases hfound : context.entryFor? entries .type with
  | none => simp
  | some found =>
      obtain ⟨key, type⟩ := found
      simp only [datatypeOf, Option.some.injEq, Prod.mk.injEq]
      cases htype : type.string?.bind (context.validIri? · true) with
      | none => simp [htype]
      | some iri => simp [htype]

/-- The warning about a constant is at the key of its language, if it is a string, or at its own. -/
theorem mem_constantOf :
  warning ∈ (constantOf context target entries valueKey value).2
    ↔ (∃ key tag text, context.entryFor? entries .language = some (key, .string tag) ∧
        value = .string text ∧ LanguageTag.normalize? tag = none ∧
        warning = .atKey .invalidLanguage key)
      ∨ (value.scalar? = none ∧ warning = .atKey .notScalar valueKey)
  := by
  cases value with
  | string text =>
      simp only [constantOf, Json.scalar?, literalOf, languageIn]
      cases hfound : context.entryFor? entries .language with
      | none => simp
      | some found =>
          obtain ⟨key, language⟩ := found
          cases language with
          | string tag =>
              cases hnormal : LanguageTag.normalize? tag with
              | none => simp [Json.string?, hnormal]
              | some normal => simp [Json.string?, hnormal]
          | _ => simp [Json.string?]
  | boolean | number => simp [constantOf, Json.scalar?, literalOf]
  | null | array | object => simp [constantOf, Json.scalar?]

/-- A value object is warned about at the entry for a type that names no datatype. -/
theorem warned_datatypeIn :
  Warned (datatypeIn context entries).2 (.key key :: path)
    ↔ ∃ type, context.entryFor? entries .type = some (key, type) ∧
      type.string?.bind (context.validIri? · true) = none
  := by
  simp only [Warned, mem_datatypeIn]
  constructor
  · rintro ⟨_, ⟨key', type, typed, unusable, rfl⟩, hprefix⟩
    obtain rfl : key' = key := by simpa [Warning.atKey, List.cons_prefix_cons] using hprefix
    exact ⟨type, typed, unusable⟩
  · rintro ⟨type, typed, unusable⟩
    exact ⟨_, ⟨key, type, typed, unusable, rfl⟩, by simp [Warning.atKey, List.cons_prefix_cons]⟩

/-- A value object with a constant is warned about at the entry for an invalid language, if the
constant is a string, and at the entry for the constant, if it is no scalar. -/
theorem warned_constantOf :
  Warned (constantOf context target entries valueKey value).2 (.key key :: path)
    ↔ (∃ language tag text, context.entryFor? entries .language = some (key, language) ∧
        language.string? = some tag ∧ value.string? = some text ∧
        LanguageTag.normalize? tag = none)
      ∨ (key = valueKey ∧ value.scalar? = none)
  := by
  simp only [Warned, mem_constantOf]
  constructor
  · rintro ⟨_, ⟨key', tag, text, spoken, rfl, invalid, rfl⟩ | ⟨composite, rfl⟩, hprefix⟩
    · obtain rfl : key' = key := by simpa [Warning.atKey, List.cons_prefix_cons] using hprefix
      exact .inl ⟨.string tag, tag, text, spoken, rfl, rfl, invalid⟩
    · obtain rfl : valueKey = key := by simpa [Warning.atKey, List.cons_prefix_cons] using hprefix
      exact .inr ⟨rfl, composite⟩
  · rintro (⟨language, tag, text, spoken, hlanguage, hvalue, invalid⟩ | ⟨rfl, composite⟩)
    · rw [Json.string?_eq_some] at hlanguage hvalue
      subst hlanguage hvalue
      refine ⟨_, .inl ⟨key, tag, text, spoken, rfl, invalid, rfl⟩, ?_⟩
      simp [Warning.atKey, List.cons_prefix_cons]
    · exact ⟨_, .inr ⟨composite, rfl⟩, by simp [Warning.atKey, List.cons_prefix_cons]⟩

end ValueObject

/-- An entry beside a top-level graph has at most one warning. -/
theorem TopLevelGraph.onceAt_otherWarnings (key : String) :
  OnceAt [.key key] (otherWarnings key)
  := by
  rw [otherWarnings]
  split
  · exact .nil
  · exact .single _

/-- The warnings about an entry of an object around a top-level graph are at its key. -/
theorem TopLevelGraph.head?_path {graphKey key : String} {contents : Match} {warning : Warning}
    (h : warning ∈ if key = graphKey then nestAll (.key key) contents.warnings
      else otherWarnings key) :
  warning.path.head? = some (.key key)
  := by
  split at h
  · apply head?_path_nestAll h
  · rw [(onceAt_otherWarnings key).path_eq h]
    rfl

/-- An entry of a node object without a link has at most one warning. -/
theorem NodeObject.Row.onceAt_plainShare (scope : NodeObject.Scope) (row : NodeObject.Row) :
  OnceAt [.key row.key] (row.plainShare scope).warnings
  := by
  obtain ⟨role, key, value⟩ := row
  cases role with
  | context => exact .nil
  | id =>
      simp only [plainShare, idShare]
      split
      · exact .nil
      · exact .single _
      · exact .nil
  | type child =>
      simp only [plainShare]
      have hclasses := typeShare_classes scope child key value
      generalize typeShare scope child key value = share at hclasses
      cases hclasses with
      | unusable => exact .single _
      | _ => exact .nil
  | property iri reverse child =>
      simp only [plainShare]
      split
      · exact .single _
      · exact .single _
  | _ => exact .single _

/-- The warnings about an entry of a node object are at its key. -/
theorem NodeObject.Branch.head?_path {scope : NodeObject.Scope} {branch : NodeObject.Branch}
    {warning : Warning}
    (h : warning ∈ (branch.share scope).warnings) :
  warning.path.head? = some (.key branch.row.key)
  := by
  cases branch with
  | plain row =>
      rw [(row.onceAt_plainShare scope).path_eq h]
      rfl
  | linked row link inner item log => apply head?_path_nestAll h

/-! ### Visits -/

/-- A scalar has at most one warning. -/
theorem Scalar.onceAt_constant (scalar : Scalar) (context : Context)
    (coercion : Option Coercion) :
  OnceAt [] (scalar.constant context coercion).2
  := by
  simp only [constant]
  split
  · split
    · exact .nil
    · exact .single _
  · split
    · exact .nil
    · exact .single _
  · exact .nil
  · exact .nil
  · exact .nil

/-- Apart from value objects, a value that leads to no other has at most one warning. -/
theorem Ends.onceAt {setup : Setup} {visit : Visit} {found : Match}
    (last : Ends setup visit found) (apart : visit.task ≠ .production .valueObject) :
  OnceAt [] found.warnings
  := by
  cases last with
  | valueObject => exact absurd rfl apart
  | scalar => apply Scalar.onceAt_constant
  | null | setObject | noNodes => exact .single _
  | placeholder | noItems | noMembers => exact .nil

/-- The warnings about the value to which a visit leads are those of its match. -/
theorem Leads.warned_iff {setup : Setup} {outer inner : Visit} {make : Match → Match}
    {found : Match} {path : List Step} (step : Leads setup outer inner make)
    (distinct : outer.value.hasDistinctKeys = true) :
  Warned (make found).warnings (setup.stepsOf outer ++ path) ↔ Warned found.warnings path
  := by
  cases step with
  | document | documentGraph | documents | nodeObjects | entryValue | graphNodes | graphNode
  | graphValue => rfl
  | onlyMember single =>
      simp only [Setup.stepsOf, single, if_false]
      rfl
  | items | members =>
      apply warned_nestAll.trans
      simp
  | topLevelGraph entered held =>
      have hkeys := (Json.hasDistinctKeys_object.mp distinct).1
      simp only [Setup.stepsOf, Production.keyword?, Setup.stepTo?_eq_some entered held]
      apply (warned_flatMap_key (fun _ _ _ => TopLevelGraph.head?_path) hkeys
        (Context.mem_of_entryFor? held)).trans
      simp
  | listObject entered held =>
      simp only [Setup.stepsOf, Production.keyword?, Setup.stepTo?_eq_some entered held]
      apply warned_nestAll.trans
      simp
  | graphObject entered held =>
      have hkeys := (Json.hasDistinctKeys_object.mp distinct).1
      simp only [Setup.stepsOf, Production.keyword?, Setup.stepTo?_eq_some entered held]
      apply (warned_flatMap_key (fun _ _ _ => GraphObject.head?_path) hkeys
        (Context.mem_of_entryFor? held)).trans
      simp [GraphObject.shareOf]

/-- The warnings about an entry of a node object are those of its share. -/
theorem NodeObject.Reads.warned_iff {setup : Setup} {entries : List (String × Json)}
    {frame : Frame} {context : Context} {branches : List NodeObject.Branch}
    {branch : NodeObject.Branch} {path : List Step}
    (reads : NodeObject.Reads setup entries frame context branches)
    (distinct : (entries.map Prod.fst).Nodup) (hbranch : branch ∈ branches) :
  Warned (NodeObject.matchOf context frame.target entries branches).warnings
      (.key branch.row.key :: path)
    ↔ Warned (branch.share (NodeObject.scopeOf context frame.target entries)).warnings
        (.key branch.row.key :: path)
  := by
  rw [reads.map_key] at distinct
  simp only [NodeObject.matchOf, NodeObject.assemble, List.flatMap_map]
  apply warned_flatMap_key _ distinct hbranch
  intro branch _ warning
  apply NodeObject.Branch.head?_path

end LinkedQuery
