import LinkedQuery.Proofs.Reading.Heeds

/-!
# Placeholders that are lost

A placeholder is lost when nothing heeds it: the template has no placeholder in its place, and no
warning is about it or something around it.  `placeholder_heeded_iff` says which ones are lost:
those under an entry that its object overlooks.
-/

namespace LinkedQuery

/-- The objects that overlook the entry under a key: it is not read, and no warning says so. -/
inductive Overlooks (setup : Setup) : Visit → String → Prop where
  /-- A list object overlooks all but the list. -/
  | list {entries : List (String × Json)} {frame : Frame} {context : Context} {key listKey : String}
      {members : Json}
      (entered : setup.enter frame.context (entries.lookup Keyword.context.text) = .ok context)
      (held : context.entryFor? entries .list = some (listKey, members)) (other : key ≠ listKey) :
      Overlooks setup ⟨.production .listObject, .object entries, frame⟩ key
  /-- A value object with the placeholder overlooks what is not the placeholder, unless a type or a
  language brings a warning about the whole. -/
  | bare {entries : List (String × Json)} {frame : Frame} {context : Context}
      {key valueKey : String}
      (entered : setup.enter frame.context (entries.lookup Keyword.context.text) = .ok context)
      (held : context.entryFor? entries .value = some (valueKey, .string placeholder))
      (type : context.entryFor? entries .type = none)
      (language : context.entryFor? entries .language = none) (other : key ≠ valueKey) :
      Overlooks setup ⟨.production .valueObject, .object entries, frame⟩ key
  /-- A value object with a constant overlooks what is not the constant, except for a type or a
  language that cannot be applied. -/
  | constant {entries : List (String × Json)} {frame : Frame} {context : Context}
      {key valueKey : String} {value : Json}
      (entered : setup.enter frame.context (entries.lookup Keyword.context.text) = .ok context)
      (held : context.entryFor? entries .value = some (valueKey, value))
      (known : value.isPlaceholder = false) (other : key ≠ valueKey)
      (type : ∀ type, context.entryFor? entries .type = some (key, type) →
        type.string?.bind (context.validIri? · true) ≠ none)
      (language : ∀ language, context.entryFor? entries .language = some (key, language) →
        language.string? = none ∨ value.string? = none) :
      Overlooks setup ⟨.production .valueObject, .object entries, frame⟩ key
  /-- Node objects and graph objects overlook a local context under an alias. -/
  | context {production : Production} {entries : List (String × Json)} {frame : Frame}
      {context : Context} {key : String}
      (object : production = .nodeObject ∨ production = .graphObject)
      (entered : setup.enter frame.context (entries.lookup Keyword.context.text) = .ok context)
      (meaning : context.meaning key = .keyword .context) :
      Overlooks setup ⟨.production production, .object entries, frame⟩ key

/-- Whether a path from a visit leads through an entry that its object overlooks. -/
def Setup.Loses (setup : Setup) (visit : Visit) (path : List Step) : Prop :=
  ∃ front last key rest, path = front ++ .key key :: rest ∧ Comes setup visit front last ∧
    Overlooks setup last key

section Places

variable {setup : Setup} {context : Context} {value : Json} {path : List Step}

/-! ### Entries that are overlooked -/

/-- An object around a template has no placeholders under other keys. -/
theorem Template.not_holds_around {entries : List (String × Json)} {key name : String}
    {template : Template} (distinct : (entries.map Prod.fst).Nodup)
    (held : (name, value) ∈ entries) (other : key ≠ name) :
  ¬ ∃ v, (around entries name template).Holds (.key key :: path) v
  := by
  rintro ⟨v, hv⟩
  obtain ⟨rest, heq, -⟩ := (holds_around distinct held).mp hv
  exact other (Step.key.inj (List.cons.inj heq).1)

/-- A local context of a node object is not heeded. -/
theorem NodeObject.Reads.not_heeds_context {entries : List (String × Json)} {frame : Frame}
    {branches : List NodeObject.Branch} {key : String}
    (reads : NodeObject.Reads setup entries frame context branches)
    (distinct : (entries.map Prod.fst).Nodup) (meaning : context.meaning key = .keyword .context) :
  let found := NodeObject.matchOf context frame.target entries branches
  ¬ LinkedQuery.Heeds found.template found.warnings (.key key :: path)
  := by
  intro found heeds
  obtain ⟨branch, hbranch, rfl⟩ : ∃ branch ∈ branches, branch.row.key = key := by
    rcases heeds with ⟨v, hv⟩ | hwarned
    · obtain ⟨branch, hbranch, rest, heq, -⟩ := (reads.holds_matchOf distinct).mp hv
      exact ⟨branch, hbranch, (Step.key.inj (List.cons.inj heq).1).symm⟩
    · simp only [found, matchOf, assemble, List.flatMap_map, warned_flatMap] at hwarned
      obtain ⟨branch, hbranch, hwarned⟩ := hwarned
      exact ⟨branch, hbranch, eq_of_warned (fun _ => Branch.head?_path) hwarned⟩
  have hshare := (reads.heeds_iff distinct hbranch _).mp heeds
  have hsuits := reads.suits hbranch
  obtain ⟨row, rfl⟩ := reads.exists_plain hbranch meaning
  rw [meaning] at hsuits
  obtain ⟨role, key, value⟩ := row
  simp only [Branch.row] at hsuits
  cases hsuits with
  | context => simp [Share.Heeds, Branch.share, Row.plainShare, Share.keep] at hshare
  | unsupported apart => exact absurd rfl apart.1

/-- A local context of a graph object is not heeded. -/
theorem GraphObject.not_heeds_context {entries : List (String × Json)} {target : Variable}
    {key graphKey : String} {graph : Json} {members : Match}
    (distinct : (entries.map Prod.fst).Nodup)
    (held : context.entryFor? entries .graph = some (graphKey, graph))
    (meaning : context.meaning key = .keyword .context) :
  let found := matchOf context target entries graphKey members
  ¬ Heeds found.template found.warnings (.key key :: path)
  := by
  have hother {keyword : Keyword} {entry : String × Json}
      (hentry : context.entryFor? entries keyword = some entry) (apart : keyword ≠ .context) :
      entry.1 ≠ key := by
    rintro rfl
    have hmeaning := List.find?_some hentry
    rw [meaning] at hmeaning
    simp [apart.symm] at hmeaning
  rintro found (⟨v, hv⟩ | hwarned)
  · rcases (GraphObject.holds_matchOf distinct held).mp hv with ⟨rest, heq, -⟩ |
      ⟨idKey, hid, heq, -⟩
    · exact hother held (by decide) (Step.key.inj (List.cons.inj heq).1).symm
    · exact hother hid (by decide) (Step.key.inj (List.cons.inj heq).1).symm
  · simp only [found, matchOf, warned_flatMap] at hwarned
    obtain ⟨entry, -, hwarned⟩ := hwarned
    obtain rfl := eq_of_warned (fun _ => GraphObject.head?_path) hwarned
    have hid : (context.entryFor? entries .id).any (·.1 == entry.1) = false := by
      cases hfound : context.entryFor? entries .id with
      | none => rfl
      | some found => simpa using hother hfound (by decide)
    simp [shareOf, Ne.symm (hother held (by decide)), hid, otherShare, meaning] at hwarned

/-- The entry that an object overlooks is not heeded. -/
theorem Overlooks.not_heeds {last : Visit} {key : String} {found : Match}
    (overlooks : Overlooks setup last key) (distinct : last.value.hasDistinctKeys = true)
    (h : setup.run last = .ok found) :
  ¬ Heeds found.template found.warnings (.key key :: path)
  := by
  cases overlooks with
  | list entered held other =>
      have hkeys := (Json.hasDistinctKeys_object.mp distinct).1
      obtain ⟨list, -, rfl⟩ := (Leads.listObject entered held).run_eq_ok.mp h
      rintro (hholds | hwarned)
      · exact Template.not_holds_around hkeys (Context.mem_of_entryFor? held) other hholds
      · exact other (Step.key.inj (warned_nestAll.mp hwarned).1).symm
  | bare entered held type language other =>
      have hkeys := (Json.hasDistinctKeys_object.mp distinct).1
      rw [(Ends.valueObject entered held).run, Except.ok.injEq] at h
      subst h
      have hplaceholder : (Json.string placeholder).isPlaceholder = true := by decide
      rintro (hholds | hwarned)
      · simp only [ValueObject.matchOf, hplaceholder, if_true] at hholds
        exact Template.not_holds_around hkeys (Context.mem_of_entryFor? held) other hholds
      · simp [ValueObject.matchOf, hplaceholder, type, language] at hwarned
  | constant entered held known other type language =>
      have hkeys := (Json.hasDistinctKeys_object.mp distinct).1
      rw [(Ends.valueObject entered held).run, Except.ok.injEq] at h
      subst h
      simp only [ValueObject.matchOf, known, Bool.false_eq_true, if_false]
      rintro (hholds | hwarned)
      · exact Template.not_holds_around hkeys (Context.mem_of_entryFor? held) other hholds
      · rw [warned_append, ValueObject.warned_datatypeIn, ValueObject.warned_constantOf] at hwarned
        rcases hwarned with ⟨found, htype, hunusable⟩ |
          ⟨found, tag, text, hlanguage, htag, htext, -⟩ | ⟨hkey, -⟩
        · exact type found htype hunusable
        · rcases language found hlanguage with hnone | hnone
          · simp [hnone] at htag
          · simp [hnone] at htext
        · exact other hkey
  | context object entered meaning =>
      have hkeys := (Json.hasDistinctKeys_object.mp distinct).1
      obtain ⟨log, derived⟩ := exists_derives _ _ h
      rcases object with rfl | rfl
      · obtain ⟨own, branches, reads, -, rfl⟩ := NodeObject.exists_reads derived
        have hentered := reads.entered
        rw [entered, Except.ok.injEq] at hentered
        subst hentered
        apply reads.not_heeds_context hkeys meaning
      · cases derived with
        | ends last => cases last
        | leads step read =>
            cases step with
            | graphObject entered' held =>
                rw [entered, Except.ok.injEq] at entered'
                subst entered'
                apply GraphObject.not_heeds_context hkeys held meaning

/-! ### Placeholders that are not lost -/

/-- What a visit loses is lost by every visit that comes to it. -/
theorem Comes.loses {outer middle : Visit} {front : List Step}
    (comes : Comes setup outer front middle) (h : setup.Loses middle path) :
  setup.Loses outer (front ++ path)
  := by
  obtain ⟨front', last, key, rest, rfl, comes', overlooks⟩ := h
  exact ⟨front ++ front', last, key, rest, (List.append_assoc _ _ _).symm, comes.trans comes',
    overlooks⟩

/-- What is within an entry that an object overlooks is lost. -/
theorem Overlooks.loses {visit : Visit} {key : String} (overlooks : Overlooks setup visit key) :
  setup.Loses visit (.key key :: path)
  := ⟨[], visit, key, path, rfl, .here, overlooks⟩

section ValueObject

variable {entries : List (String × Json)} {frame : Frame} {valueKey key : String} {part : Json}

/-- A placeholder within a value object with the placeholder is heeded, or its entry is
overlooked. -/
theorem ValueObject.heeds_or_overlooks_bare (distinct : (entries.map Prod.fst).Nodup)
    (entered : setup.enter frame.context (entries.lookup Keyword.context.text) = .ok context)
    (valued : context.entryFor? entries .value = some (valueKey, .string placeholder))
    (hpart : entries.lookup key = some part)
    (held : part.at? path = some (.string placeholder)) :
  let found := matchOf context frame.target entries valueKey (.string placeholder)
  Heeds found.template found.warnings (.key key :: path)
    ∨ Overlooks setup ⟨.production .valueObject, .object entries, frame⟩ key
  := by
  have hplaceholder : (Json.string placeholder).isPlaceholder = true := by decide
  rcases eq_or_ne key valueKey with rfl | other
  · obtain rfl := Context.eq_of_entryFor? distinct valued hpart
    obtain ⟨rfl, -⟩ := Json.at?_scalar rfl held
    refine .inl (.inl ⟨frame.target, ?_⟩)
    simp only [matchOf, hplaceholder, if_true]
    exact (Template.holds_around distinct (Context.mem_of_entryFor? valued)).mpr
      ⟨[], rfl, Template.holds_native.mpr ⟨rfl, rfl⟩⟩
  · cases htype : context.entryFor? entries .type with
    | some type =>
        left
        right
        simp [matchOf, hplaceholder, htype]
    | none =>
        cases hlanguage : context.entryFor? entries .language with
        | some language =>
            left
            right
            simp [matchOf, hplaceholder, hlanguage]
        | none => exact .inr (.bare entered valued htype hlanguage other)

/-- A placeholder within a value object with a constant is heeded, or its entry is overlooked. -/
theorem ValueObject.heeds_or_overlooks_constant (distinct : (entries.map Prod.fst).Nodup)
    (entered : setup.enter frame.context (entries.lookup Keyword.context.text) = .ok context)
    (valued : context.entryFor? entries .value = some (valueKey, value))
    (known : value.isPlaceholder = false) (hpart : entries.lookup key = some part)
    (held : part.at? path = some (.string placeholder)) :
  let found := matchOf context frame.target entries valueKey value
  Heeds found.template found.warnings (.key key :: path)
    ∨ Overlooks setup ⟨.production .valueObject, .object entries, frame⟩ key
  := by
  by_cases hwarned : Warned ((datatypeIn context entries).2
      ++ (constantOf context frame.target entries valueKey value).2) [.key key]
  · left
    simp only [matchOf, known, Bool.false_eq_true, if_false]
    apply hwarned.heeds
  · right
    rw [warned_append, warned_datatypeIn, warned_constantOf, not_or, not_or] at hwarned
    obtain ⟨htype, hlanguage, hscalar⟩ := hwarned
    refine .constant entered valued known ?_ ?_ ?_
    · -- A value that contains the placeholder without being it is no scalar.
      rintro rfl
      obtain rfl := Context.eq_of_entryFor? distinct valued hpart
      cases hconstant : value.scalar? with
      | none => exact hscalar ⟨rfl, hconstant⟩
      | some scalar =>
          have hsame := (Json.at?_scalar hconstant held).2
          rw [known] at hsame
          cases hsame
    · intro type hfound hunusable
      exact htype ⟨type, hfound, hunusable⟩
    · intro language hfound
      obtain rfl := Context.eq_of_entryFor? distinct hfound hpart
      cases language with
      | string tag =>
          -- The placeholder is no language, so it is warned about beside a string.
          right
          obtain ⟨-, hplaceholder⟩ := Json.at?_scalar rfl held
          obtain rfl : tag = placeholder := by simpa [Json.isPlaceholder] using hplaceholder
          have hinvalid : LanguageTag.normalize? placeholder = none := by decide
          cases htext : value.string? with
          | none => rfl
          | some text => exact absurd ⟨_, _, text, hfound, rfl, htext, hinvalid⟩ hlanguage
      | _ => exact .inl rfl

end ValueObject

/-- A placeholder within a graph object is heeded, or its entry is overlooked, unless it is within
the graph. -/
theorem GraphObject.heeds_or_overlooks {entries : List (String × Json)} {frame : Frame}
    {graphKey key : String} {graph : Json} {members : Match}
    (distinct : (entries.map Prod.fst).Nodup)
    (entered : setup.enter frame.context (entries.lookup Keyword.context.text) = .ok context)
    (graphed : context.entryFor? entries .graph = some (graphKey, graph)) (other : key ≠ graphKey)
    {part : Json} (hpart : entries.lookup key = some part)
    (held : part.at? path = some (.string placeholder)) :
  let found := matchOf context frame.target entries graphKey members
  Heeds found.template found.warnings (.key key :: path)
    ∨ Overlooks setup ⟨.production .graphObject, .object entries, frame⟩ key
  := by
  intro found
  have hmem := (Entries.lookup_eq_some_iff distinct).mp hpart
  have hwarned (h : Warned (shareOf context frame.target entries graphKey members key part).warnings
      [.key key]) : Heeds found.template found.warnings (.key key :: path) := by
    apply Warned.heeds
    apply warned_flatMap.mpr ⟨(key, part), hmem, h⟩
  cases hid : (context.entryFor? entries .id).any (·.1 == key) with
  | true =>
      left
      obtain ⟨entry, hentry, hkey⟩ := (Option.any_eq_true _ _).mp hid
      obtain ⟨idKey, name⟩ := entry
      obtain rfl : idKey = key := eq_of_beq hkey
      obtain rfl := Context.eq_of_entryFor? distinct hentry hpart
      rcases context.identity_of_at? held with ⟨rfl, hidentity⟩ | ⟨notice, hidentity⟩
      · rw [eq_placeholder_of_identity hidentity] at hentry
        exact .inl ⟨frame.target, (holds_matchOf distinct graphed).mpr
          (.inr ⟨idKey, hentry, rfl, rfl⟩)⟩
      · apply hwarned
        simp [shareOf, other, idShare, identityOf, hentry, hidentity]
  | false =>
      by_cases hmeaning : context.meaning key = .keyword .context
      · exact .inr (.context (.inr rfl) entered hmeaning)
      · left
        apply hwarned
        simp only [shareOf, other, if_false, hid, Bool.false_eq_true, otherShare]
        split
        · exact absurd ‹_› hmeaning
        · apply warned_atKey.mpr rfl
        · apply warned_atKey.mpr rfl

/-- A placeholder within the value of a visit that ends there is heeded, or it is lost. -/
theorem Ends.heeds_or_loses {visit : Visit} {found : Match} (last : Ends setup visit found)
    (distinct : visit.value.hasDistinctKeys = true)
    (held : visit.value.at? path = some (.string LinkedQuery.placeholder)) :
  Heeds found.template found.warnings path ∨ setup.Loses visit path
  := by
  cases last with
  | null =>
      cases path with
      | nil => cases held
      | cons step rest => cases step with | _ => cases held
  | placeholder =>
      obtain ⟨rfl, -⟩ := Json.at?_scalar rfl held
      exact .inl (.inl ⟨_, Template.holds_native.mpr ⟨rfl, rfl⟩⟩)
  | scalar known constant =>
      have hsame := (Json.at?_scalar constant held).2
      rw [known] at hsame
      cases hsame
  | @valueObject entries frame context valueKey value entered valued =>
      have hkeys := (Json.hasDistinctKeys_object.mp distinct).1
      obtain ⟨key, part, rest, rfl, hpart, hrest⟩ := Json.at?_object held
      refine Or.imp_right Overlooks.loses ?_
      cases hplaceholder : value.isPlaceholder with
      | false =>
          apply ValueObject.heeds_or_overlooks_constant hkeys entered valued hplaceholder hpart
            hrest
      | true =>
          obtain rfl := Json.eq_placeholder hplaceholder
          apply ValueObject.heeds_or_overlooks_bare hkeys entered valued hpart hrest
  | setObject => exact .inl (.inr warned_whole)
  | noItems | noMembers =>
      obtain ⟨position, item, rest, rfl, hitem, -⟩ := Json.at?_array held
      cases hitem
  | noNodes refused => exact .inl (.inr warned_whole)

/-- A placeholder within the value of a visit that leads to another is within the value of the
other, or it is heeded, or it is lost. -/
theorem Leads.within_or_heeds_or_loses {outer inner : Visit} {make : Match → Match}
    (step : Leads setup outer inner make) (found : Match)
    (distinct : outer.value.hasDistinctKeys = true)
    (held : outer.value.at? path = some (.string placeholder))
    (plain : ∀ step ∈ path, step.Plain) :
  (∃ rest, path = setup.stepsOf outer ++ rest ∧ inner.value.at? rest = some (.string placeholder))
    ∨ Heeds (make found).template (make found).warnings path
    ∨ setup.Loses outer path
  := by
  cases step with
  | document | documentGraph | documents | nodeObjects | entryValue | graphNodes | graphNode
  | graphValue => exact .inl ⟨path, rfl, held⟩
  | onlyMember single =>
      left
      simp only [Setup.stepsOf, single, if_false]
      exact ⟨path, rfl, held⟩
  | items | members =>
      left
      obtain ⟨position, item, rest, rfl, hitem, hrest⟩ := Json.at?_array held
      obtain rfl : position = 0 := plain _ List.mem_cons_self
      obtain rfl := Option.some.inj hitem
      exact ⟨rest, rfl, hrest⟩
  | topLevelGraph entered graphed chosen =>
      have hkeys := (Json.hasDistinctKeys_object.mp distinct).1
      simp only [Setup.stepsOf, Production.keyword?, Setup.stepTo?_eq_some entered graphed]
      apply (Context.within_entry hkeys graphed held).imp_right
      rintro ⟨other, part, rest, hother, rfl, hpart, -⟩
      have hcontext : other ≠ Keyword.context.text := plain _ List.mem_cons_self
      left
      apply Warned.heeds
      apply warned_flatMap.mpr
      refine ⟨(other, part), (Entries.lookup_eq_some_iff hkeys).mp hpart, ?_⟩
      simp [hother, TopLevelGraph.otherWarnings, hcontext]
  | listObject entered listed =>
      have hkeys := (Json.hasDistinctKeys_object.mp distinct).1
      simp only [Setup.stepsOf, Production.keyword?, Setup.stepTo?_eq_some entered listed]
      apply (Context.within_entry hkeys listed held).imp_right
      rintro ⟨other, part, rest, hother, rfl, -⟩
      exact .inr (Overlooks.list entered listed hother).loses
  | graphObject entered graphed =>
      have hkeys := (Json.hasDistinctKeys_object.mp distinct).1
      simp only [Setup.stepsOf, Production.keyword?, Setup.stepTo?_eq_some entered graphed]
      apply (Context.within_entry hkeys graphed held).imp_right
      rintro ⟨other, part, rest, hother, rfl, hpart, hrest⟩
      apply (GraphObject.heeds_or_overlooks hkeys entered graphed hother hpart hrest).imp_right
      apply Overlooks.loses

/-- A placeholder within what is derived is heeded, or it is lost. -/
theorem Derives.heeds_or_loses {visit : Visit} {found : Match} {log : Log}
    (derived : Derives setup visit found log) (distinct : visit.value.hasDistinctKeys = true)
    (held : visit.value.at? path = some (.string placeholder))
    (plain : ∀ step ∈ path, step.Plain) :
  Heeds found.template found.warnings path ∨ setup.Loses visit path
  := by
  induction derived generalizing path with
  | ends last => apply last.heeds_or_loses distinct held
  | @leads outer inner make found log step read ih =>
      rcases step.within_or_heeds_or_loses found distinct held plain with
        ⟨rest, rfl, hrest⟩ | h
      · have hplain : ∀ step ∈ rest, step.Plain :=
          fun step hstep => plain step (List.mem_append_right _ hstep)
        apply (ih (step.hasDistinctKeys distinct) hrest hplain).imp
        · apply (step.heeds_iff distinct).mpr
        · apply step.comes.loses
      · exact h
  | @node entries frame context branches reads read ih =>
      have hkeys := (Json.hasDistinctKeys_object.mp distinct).1
      obtain ⟨key, part, rest, rfl, hpart, hrest⟩ := Json.at?_object held
      have hplain : ∀ step ∈ rest, step.Plain :=
        fun step hstep => plain step (List.mem_cons_of_mem _ hstep)
      have hmem := (Entries.lookup_eq_some_iff hkeys).mp hpart
      rw [reads.entries_eq] at hmem
      obtain ⟨branch, hbranch, hentry⟩ := List.mem_map.mp hmem
      obtain ⟨rfl, rfl⟩ := Prod.mk.inj hentry
      have hheeds := reads.heeds_iff hkeys hbranch rest
      cases branch with
      | plain row =>
          rcases reads.heeds_plain hbranch hrest hplain with h | hmeaning
          · exact .inl (hheeds.mpr h)
          · right
            apply (Overlooks.context (.inl rfl) reads.entered hmeaning).loses
      | linked row link inner item log =>
          have hvalue := reads.hasDistinctKeys distinct hbranch
          apply (ih row link inner item log hbranch hvalue hrest hplain).imp
          · intro h
            apply hheeds.mpr
            apply (link.heeds_iff _ _ _ _).mpr h
          · intro h
            obtain ⟨earlier, later, rfl⟩ := List.append_of_mem hbranch
            obtain ⟨rfl, linked⟩ := reads.linkedAt
            apply (Comes.entry linked .here).loses h

end Places

/-! ### Queries -/

/-- What a query says about a path: the places of its warnings, and the variable of the template's
placeholder at the path. -/
def Query.remarks (query : Query) (path : List Step) : List (List Step) × Option Variable :=
  (query.warnings.map Warning.path, (query.template.at? path).bind Template.placeholder?)

/-- Nothing is heeded at a path where the template has no placeholder and no warning is around. -/
theorem not_heeds_of_remarks {query : Query} {path : List Step} {places : List (List Step)}
    (h : query.remarks path = (places, none)) (apart : ∀ place ∈ places, ¬ place <+: path) :
  ¬ Heeds query.template query.warnings path
  := by
  obtain ⟨hplaces, hfree⟩ := Prod.mk.inj h
  rintro (⟨v, hv⟩ | ⟨warning, hmem, hprefix⟩)
  · rw [Template.Holds, hfree] at hv
    cases hv
  · apply apart warning.path _ hprefix
    rw [← hplaces]
    apply List.mem_map_of_mem hmem

/-- Every placeholder of a document is a placeholder of the template or within something that a
warning is about, except for exactly those under an entry which its object overlooks. -/
theorem placeholder_heeded_iff (setup : Setup) (document : Json) (query : Query)
    (path : List Step) (distinct : document.hasDistinctKeys = true)
    (h : setup.grammar.query document = .ok query)
    (held : document.at? path = some (.string placeholder))
    (plain : ∀ step ∈ path, step.Plain) :
  Heeds query.template query.warnings path ↔ ¬ setup.Loses (setup.documentVisit document) path
  := by
  obtain ⟨found, log, derived, rfl⟩ := query_eq_ok.mp h
  constructor
  · rintro hheeds ⟨front, last, key, rest, rfl, comes, overlooks⟩
    obtain ⟨item, hitem, hiff⟩ := comes.exists_heeds_iff distinct derived.run
    apply overlooks.not_heeds (comes.hasDistinctKeys distinct) hitem ((hiff _).mp hheeds)
  · intro hkept
    apply (derived.heeds_or_loses distinct held plain).resolve_right hkept

/-- A document about an interview: its title is asked for in a language, and there is a note beside
the quote. -/
def interview : Json :=
  .object [("ex:title", .object [("@value", .string "?"), ("@language", .string "en")]),
    ("ex:quote", .object [("@value", .string "?"), ("note", .string "?")])]

/-- The title of the interview is heeded, and the note is lost. -/
theorem placeholder_heeded_iff_interview :
  let visit := ({} : Setup).documentVisit interview
  ¬ ({} : Setup).Loses visit [.key "ex:title", .key "@value"] ∧
    ({} : Setup).Loses visit [.key "ex:quote", .key "note"]
  := by
  have htitle : (({} : Setup).grammar.query interview).toOption.map
      (·.remarks [.key "ex:title", .key "@value"])
        = some ([[.key "ex:title"]], some ⟨"root·title"⟩) := by decide +kernel
  have hnote : (({} : Setup).grammar.query interview).toOption.map
      (·.remarks [.key "ex:quote", .key "note"]) = some ([[.key "ex:title"]], none) := by
    decide +kernel
  constructor
  · obtain ⟨query, h, hremarks⟩ := exists_of_outcome _ _ htitle
    apply (placeholder_heeded_iff {} interview query _ (by decide) h rfl (by decide)).mp
    exact .inl ⟨_, (Prod.mk.inj hremarks).2⟩
  · obtain ⟨query, h, hremarks⟩ := exists_of_outcome _ _ hnote
    have hlost := not_heeds_of_remarks hremarks (by decide)
    rw [placeholder_heeded_iff {} interview query _ (by decide) h rfl (by decide),
      not_not] at hlost
    exact hlost

/-- A document about a recipe whose list of steps has a note beside it. -/
def recipe : Json :=
  .object [("ex:p", .object [("@list", .array [.string "a"]), ("note", .string "?")])]

/-- The note beside the list is neither a placeholder of the template nor warned about. -/
theorem placeholder_lost_note :
  let note : List Step := [.key "ex:p", .key "note"]
  ∃ query, ({} : Setup).grammar.query recipe = .ok query ∧
    recipe.at? note = some (.string placeholder) ∧ (∀ step ∈ note, step.Plain) ∧
    ¬ Heeds query.template query.warnings note
  := by
  have houtcome : (({} : Setup).grammar.query recipe).toOption.map
      (·.remarks [.key "ex:p", .key "note"]) = some ([], none) := by decide +kernel
  obtain ⟨query, h, hremarks⟩ := exists_of_outcome _ _ houtcome
  exact ⟨query, h, rfl, by decide, not_heeds_of_remarks hremarks (by decide)⟩

end LinkedQuery
