import LinkedQuery.Proofs.Json.Precedence
import LinkedQuery.Proofs.Reading.Log
import LinkedQuery.Proofs.Reading.Warnings

/-!
# The order of warnings

The warnings of a query come in the order of the document, since every object is read entry by
entry.  Value objects are the exception: the type is looked at first, wherever it stands, and a
language or a value before it is warned about later.  `warnings_inOrder_iff` says that nothing else
disturbs the order.
-/

namespace LinkedQuery

variable {setup : Setup}

/-! ### Value objects -/

/-- The value objects with an unusable type behind an invalid language, or behind a value that is
no scalar. -/
inductive Disorders (setup : Setup) : Visit → Prop where
  | language {entries : List (String × Json)} {frame : Frame} {context : Context}
      {valueKey typeKey languageKey text tag : String} {type : Json}
      (entered : setup.enter frame.context (entries.lookup Keyword.context.text) = .ok context)
      (valued : context.entryFor? entries .value = some (valueKey, .string text))
      (known : (Json.string text).isPlaceholder = false)
      (typed : context.entryFor? entries .type = some (typeKey, type))
      (unusable : type.string?.bind (context.validIri? · true) = none)
      (spoken : context.entryFor? entries .language = some (languageKey, .string tag))
      (invalid : LanguageTag.normalize? tag = none)
      (early : Entries.before entries languageKey typeKey = true) :
      Disorders setup ⟨.production .valueObject, .object entries, frame⟩
  | value {entries : List (String × Json)} {frame : Frame} {context : Context}
      {valueKey typeKey : String} {value type : Json}
      (entered : setup.enter frame.context (entries.lookup Keyword.context.text) = .ok context)
      (valued : context.entryFor? entries .value = some (valueKey, value))
      (composite : value.scalar? = none)
      (typed : context.entryFor? entries .type = some (typeKey, type))
      (unusable : type.string?.bind (context.validIri? · true) = none)
      (early : Entries.before entries valueKey typeKey = true) :
      Disorders setup ⟨.production .valueObject, .object entries, frame⟩

namespace ValueObject

variable {context : Context} {target : Variable} {entries : List (String × Json)}
  {valueKey : String} {value : Json}

theorem isPlaceholder_eq_false (composite : value.scalar? = none) :
  value.isPlaceholder = false
  := by
  cases value with
  | string text => cases composite
  | _ => rfl

theorem length_datatypeIn :
  (datatypeIn context entries).2.length ≤ 1
  := by
  rw [datatypeIn]
  split
  · rw [datatypeOf]
    split
    · simp
    · simp
  · simp

theorem length_constantOf :
  (constantOf context target entries valueKey value).2.length ≤ 1
  := by
  rw [constantOf]
  split
  · simp only [literalOf]
    split
    · split
      · simp
      · simp
    · simp
  · simp

end ValueObject

/-- A value object disorders its warnings when the one about its constant is at an entry before the
one about its type. -/
theorem ValueObject.disorders_iff {entries : List (String × Json)} {frame : Frame}
    {context : Context} {key : String} {value : Json}
    (entered : setup.enter frame.context (entries.lookup Keyword.context.text) = .ok context)
    (valued : context.entryFor? entries .value = some (key, value)) :
  Disorders setup ⟨.production .valueObject, .object entries, frame⟩
    ↔ value.isPlaceholder = false ∧ ∃ earlier ∈ (datatypeIn context entries).2,
      ∃ later ∈ (constantOf context frame.target entries key value).2,
        (Json.object entries).pathBefore later.path earlier.path = true
  := by
  constructor
  · intro h
    cases h with
    | language entered' valued' known typed unusable spoken invalid early =>
        obtain rfl := Except.ok.inj (entered.symm.trans entered')
        obtain ⟨rfl, rfl⟩ := Prod.mk.inj (Option.some.inj (valued.symm.trans valued'))
        refine ⟨known, _, mem_datatypeIn.mpr ⟨_, _, typed, unusable, rfl⟩,
          _, mem_constantOf.mpr (.inl ⟨_, _, _, spoken, rfl, invalid, rfl⟩), ?_⟩
        simpa [Warning.atKey] using early
    | value entered' valued' composite typed unusable early =>
        obtain rfl := Except.ok.inj (entered.symm.trans entered')
        obtain ⟨rfl, rfl⟩ := Prod.mk.inj (Option.some.inj (valued.symm.trans valued'))
        refine ⟨isPlaceholder_eq_false composite, _,
          mem_datatypeIn.mpr ⟨_, _, typed, unusable, rfl⟩,
          _, mem_constantOf.mpr (.inr ⟨composite, rfl⟩), ?_⟩
        simpa [Warning.atKey] using early
  · rintro ⟨known, earlier, hearlier, later, hlater, hbefore⟩
    obtain ⟨typeKey, type, typed, unusable, rfl⟩ := mem_datatypeIn.mp hearlier
    obtain ⟨languageKey, tag, text, spoken, rfl, invalid, rfl⟩ | ⟨composite, rfl⟩ :=
      mem_constantOf.mp hlater
    · rw [Warning.atKey, Warning.atKey, Json.pathBefore_key] at hbefore
      apply Disorders.language entered valued known typed unusable spoken invalid hbefore
    · rw [Warning.atKey, Warning.atKey, Json.pathBefore_key] at hbefore
      apply Disorders.value entered valued composite typed unusable hbefore

/-- The warnings about a value object are in order unless it disorders them. -/
theorem ValueObject.inOrder_iff {entries : List (String × Json)} {frame : Frame}
    {context : Context} {key : String} {value : Json}
    (entered : setup.enter frame.context (entries.lookup Keyword.context.text) = .ok context)
    (valued : context.entryFor? entries .value = some (key, value)) :
  InOrder (.object entries) (matchOf context frame.target entries key value).warnings
    ↔ ¬ Disorders setup ⟨.production .valueObject, .object entries, frame⟩
  := by
  rw [disorders_iff entered valued]
  cases known : value.isPlaceholder with
  | true =>
      simp only [Bool.true_eq_false, false_and, not_false_eq_true, iff_true]
      apply InOrder.of_length_le_one
      rw [matchOf, if_pos known]
      split
      · simp
      · simp
  | false =>
      have hwarnings : (matchOf context frame.target entries key value).warnings
          = (datatypeIn context entries).2
            ++ (constantOf context frame.target entries key value).2 := by
        simp [matchOf, known]
      rw [hwarnings, InOrder, List.pairwise_append]
      -- On either side there is at most one warning, so only the two together can be disordered.
      have htype : InOrder (.object entries) (datatypeIn context entries).2 :=
        .of_length_le_one length_datatypeIn
      have hconstant : InOrder (.object entries)
          (constantOf context frame.target entries key value).2 :=
        .of_length_le_one length_constantOf
      rw [InOrder] at htype hconstant
      simp only [htype, hconstant, true_and, not_exists, not_and, Bool.not_eq_true]

/-! ### Visits -/

/-- The warnings about a value that leads to no other are in order unless it disorders them. -/
theorem Ends.inOrder_iff {visit : Visit} {found : Match} (last : Ends setup visit found) :
  InOrder visit.value found.warnings ↔ ¬ Disorders setup visit
  := by
  by_cases htask : visit.task = .production .valueObject
  · cases last with
    | valueObject entered valued => apply ValueObject.inOrder_iff entered valued
    | _ => cases htask
  · apply iff_of_true (.of_length_le_one (last.onceAt htask).length_le_one)
    intro disorders
    cases disorders with
    | _ => exact htask rfl

/-- A visit that leads to another has its warnings in order when the other has. -/
theorem Leads.inOrder_iff {outer inner : Visit} {make : Match → Match} {found : Match}
    (step : Leads setup outer inner make) (distinct : outer.value.hasDistinctKeys = true) :
  InOrder outer.value (make found).warnings ↔ InOrder inner.value found.warnings
  := by
  cases step with
  | document | documentGraph | documents | nodeObjects | entryValue | graphNodes | graphNode
  | graphValue | onlyMember => rfl
  | items | members => apply inOrder_nestAll rfl
  | topLevelGraph entered held chosen =>
      have hkeys := (Json.hasDistinctKeys_object.mp distinct).1
      apply inOrder_around hkeys (Context.mem_of_entryFor? held)
      · intro entry _ warning
        apply TopLevelGraph.head?_path
      · simp
      · intro entry _ hkey
        simp only [hkey, if_false]
        apply (TopLevelGraph.onceAt_otherWarnings entry.1).length_le_one
  | listObject entered held =>
      have hkeys := (Json.hasDistinctKeys_object.mp distinct).1
      apply inOrder_nestAll
      apply (Entries.lookup_eq_some_iff hkeys).mpr (Context.mem_of_entryFor? held)
  | graphObject entered held =>
      have hkeys := (Json.hasDistinctKeys_object.mp distinct).1
      apply inOrder_around hkeys (Context.mem_of_entryFor? held)
      · intro entry _ warning
        apply GraphObject.head?_path
      · simp [GraphObject.shareOf]
      · intro entry _ hkey
        apply (GraphObject.onceAt_shareOf hkey).length_le_one

/-- An entry with a link has its warnings in order when the match of its value has. -/
theorem NodeObject.Branch.inOrder_linked {entries : List (String × Json)}
    {scope : NodeObject.Scope} {row : NodeObject.Row} {link : NodeObject.Link} {inner : Context}
    {item : Match} {log : Log} (held : entries.lookup row.key = some row.value) :
  InOrder (.object entries) ((Branch.linked row link inner item log).share scope).warnings
    ↔ InOrder row.value item.warnings
  := inOrder_nestAll held

/-- The warnings of a match are in order unless a value object on the way disorders them. -/
theorem Derives.inOrder_iff {visit : Visit} {found : Match} {log : Log}
    (derived : Derives setup visit found log) (distinct : visit.value.hasDistinctKeys = true) :
  InOrder visit.value found.warnings ↔ ∀ entry ∈ (visit, found) :: log, ¬ Disorders setup entry.1
  := by
  induction derived with
  | ends last => simp [last.inOrder_iff]
  | @leads outer inner make found log step read ih =>
      have hnone : ¬ Disorders setup outer := by
        intro h
        cases h
        all_goals cases step
      rw [step.inOrder_iff distinct, ih (step.hasDistinctKeys distinct)]
      simp [hnone]
  | @node entries frame context branches reads read ih =>
      have hkeys := (Json.hasDistinctKeys_object.mp distinct).1
      have hnone : ¬ Disorders setup ⟨.production .nodeObject, .object entries, frame⟩ := by
        intro h
        cases h
      have hheld {branch : NodeObject.Branch} (hbranch : branch ∈ branches) :
          entries.lookup branch.row.key = some branch.row.value := by
        apply (Entries.lookup_eq_some_iff hkeys).mpr (reads.mem_entries hbranch)
      simp only [NodeObject.matchOf, NodeObject.assemble, List.flatMap_map, List.forall_mem_cons,
        hnone, not_false_eq_true, true_and]
      rw [inOrder_flatMap hkeys reads.map_key.symm (fun _ _ _ => NodeObject.Branch.head?_path)]
      constructor
      · intro h entry hentry
        obtain ⟨row, link, inner, item, log, hbranch, hentry⟩ :=
          NodeObject.mem_flatMap_log.mp hentry
        have hrow := (NodeObject.Branch.inOrder_linked (hheld hbranch)).mp (h _ hbranch)
        have hdistinct := reads.hasDistinctKeys distinct hbranch
        exact (ih row link inner item log hbranch hdistinct).mp hrow entry hentry
      · intro h branch hbranch
        cases branch with
        | plain row => exact .of_length_le_one (row.onceAt_plainShare _).length_le_one
        | linked row link inner item log =>
            apply (NodeObject.Branch.inOrder_linked (hheld hbranch)).mpr
            have hdistinct := reads.hasDistinctKeys distinct hbranch
            apply (ih row link inner item log hbranch hdistinct).mpr
            intro entry hentry
            apply h
            apply NodeObject.mem_flatMap_log.mpr
            use row, link, inner, item, log, hbranch

/-! ### Queries -/

/-- The warnings of a query come in the order of the document exactly when no value object on the way
has an unusable type behind an invalid language, or behind a value that is no scalar. -/
theorem warnings_inOrder_iff {document : Json} {query : Query}
    (distinct : document.hasDistinctKeys = true) (h : setup.grammar.query document = .ok query) :
  InOrder document query.warnings
    ↔ ∀ visit found, setup.Meets document visit found → ¬ Disorders setup visit
  := by
  obtain ⟨found, log, derived, rfl⟩ := query_eq_ok.mp h
  apply derived.iff_of_meets
  intro log' derived'
  apply derived'.inOrder_iff distinct

/-- A film with a title, which has a language that is none and a type that is none. -/
def mislabelled (languageFirst : Bool) : Json :=
  let language := ("@language", Json.string "!!")
  let type := ("@type", Json.string "nope")
  .object [("ex:title", .object (("@value", .string "Hope")
    :: if languageFirst then [language, type] else [type, language]))]

/-- Where the language stands first, the warning about it comes last all the same. -/
theorem mislabelled_warnings :
  ∃ query, ({} : Setup).grammar.query (mislabelled true) = .ok query
    ∧ query.warnings = [
      ⟨.unusableDatatype, [.key "ex:title", .key "@type"]⟩,
      ⟨.invalidLanguage, [.key "ex:title", .key "@language"]⟩]
  := by
  have houtcome : (({} : Setup).grammar.query (mislabelled true)).toOption.map Query.warnings
      = some [⟨.unusableDatatype, [.key "ex:title", .key "@type"]⟩,
        ⟨.invalidLanguage, [.key "ex:title", .key "@language"]⟩] := by
    decide +kernel
  exact exists_of_outcome _ _ houtcome

/-- The type before the language disorders no warnings, the language before the type does. -/
theorem warnings_inOrder_iff_mislabelled :
  (∀ visit found, ({} : Setup).Meets (mislabelled false) visit found → ¬ Disorders {} visit)
    ∧ ∃ visit found, ({} : Setup).Meets (mislabelled true) visit found ∧ Disorders {} visit
  := by
  constructor
  · have houtcome : (({} : Setup).grammar.query (mislabelled false)).toOption.map
        (fun query => decide (InOrder (mislabelled false) query.warnings)) = some true := by
      decide +kernel
    obtain ⟨query, h, inOrder⟩ := exists_of_outcome _ _ houtcome
    exact (warnings_inOrder_iff (by decide) h).mp (of_decide_eq_true inOrder)
  · obtain ⟨query, h, hwarnings⟩ := mislabelled_warnings
    by_contra hnone
    push Not at hnone
    have inOrder := (warnings_inOrder_iff (by decide) h).mpr hnone
    rw [hwarnings] at inOrder
    revert inOrder
    decide +kernel

/-- The warning about a type comes before the one about the language that stands before it. -/
theorem warnings_disordered_title :
  ∃ query, ({} : Setup).grammar.query (mislabelled true) = .ok query
    ∧ ¬ InOrder (mislabelled true) query.warnings
  := by
  obtain ⟨query, h, hwarnings⟩ := mislabelled_warnings
  use query, h
  rw [hwarnings]
  decide +kernel

end LinkedQuery
