import LinkedQuery.Proofs.Reading.Log
import LinkedQuery.Proofs.Reading.Warnings

/-!
# Qualifiers of value objects

A value object can name the language or the datatype of its constant.  The qualifier takes effect
when the term is a literal with that language or that datatype.  `qualifiers_heeded_iff` says for
which value objects every qualifier takes effect or some warning is given, and so which qualifiers
are dropped without a word: a language that is no text, a language of what is no text, a datatype
beside a language, and a second language or datatype that is not the first.
-/

namespace LinkedQuery

/-! ### Languages and datatypes of literals -/

/-- The datatype of tagged strings. -/
def Vocabulary.rdfLangString : String := rdf "langString"

/-- The datatype of a literal. -/
def Literal.datatype : Literal → String
  | .plain _ => Vocabulary.xsdString
  | .tagged _ _ => Vocabulary.rdfLangString
  | .typed _ datatype => datatype

/-- A tag in small letters; tags that differ in capitals stand for the same language. -/
def LanguageTag.lower (tag : String) : String :=
  String.ofList (tag.toList.map Char.toLower)

/-- Whether a term is a literal in the language that a value names. -/
def Term.InLanguage (term : Term) (language : Json) : Prop :=
  ∃ text tag, language = .string tag ∧ term = .literal (.tagged text (LanguageTag.lower tag))

/-- The IRI of the datatype that a value names in a context. -/
def Context.datatypeIri? (context : Context) (type : Json) : Option String :=
  type.string?.bind (context.expand? · true)

/-- Whether a term is a literal of the datatype that a value names in a context. -/
def Term.OfDatatype (context : Context) (term : Term) (type : Json) : Prop :=
  ∃ literal, term = .literal literal ∧ context.datatypeIri? type = some literal.datatype

theorem LanguageTag.eq_lower_of_normalize? {tag normal : String}
    (h : normalize? tag = some normal) :
  normal = lower tag
  := by
  simp only [normalize?, Option.ite_none_right_eq_some, Option.some.injEq] at h
  exact h.2.symm

/-- A literal with a datatype has that datatype, and no language. -/
theorem Literal.datatype_ofDatatype (text datatype : String) :
  (ofDatatype text datatype).datatype = datatype
  := by
  rw [ofDatatype]
  split
  · exact ‹datatype = _›.symm
  · rfl

namespace ValueObject

/-- A scalar without a language makes no tagged string. -/
theorem withDatatype_ne_tagged (scalar : Scalar) (datatype : Option String)
    (text language : String) :
  withDatatype scalar datatype ≠ .tagged text language
  := by
  cases datatype with
  | some iri =>
      rw [withDatatype, Literal.ofDatatype]
      split
      · simp
      · simp
  | none =>
      cases scalar with
      | number value =>
          cases value with
          | _ => simp [withDatatype, Scalar.literal, Scalar.ofNumber]
      | _ => simp [withDatatype, Scalar.literal]

/-! ### Qualifiers -/

/-- Whether every qualifier of a value object takes effect on the term of a match, or the match has
a warning. -/
def HeedsQualifiers (context : Context) (entries : List (String × Json)) (found : Match) : Prop :=
  ∀ key value, (key, value) ∈ entries →
    (context.meaning key = .keyword .language →
        found.term.InLanguage value ∨ found.warnings ≠ []) ∧
      (context.meaning key = .keyword .type →
        found.term.OfDatatype context value ∨ found.warnings ≠ [])

/-- The value objects that drop a language: the language is no text, or the value is none, or it is
another language than the first. -/
inductive DropsLanguage (context : Context) (entries : List (String × Json)) (value : Json) :
    Prop where
  | noTag {key : String} {language : Json} (held : (key, language) ∈ entries)
      (meaning : context.meaning key = .keyword .language) (wordless : language.string? = none)
  | noText {key : String} {language : Json} (held : (key, language) ∈ entries)
      (meaning : context.meaning key = .keyword .language) (wordless : value.string? = none)
  | other {firstKey first key tag : String} (held : (key, .string tag) ∈ entries)
      (meaning : context.meaning key = .keyword .language)
      (spoken : context.entryFor? entries .language = some (firstKey, .string first))
      (differs : LanguageTag.lower tag ≠ LanguageTag.lower first)

/-- The value objects that drop a datatype: the text is in a language, whose strings have a datatype
of their own, or it is another datatype than the first. -/
inductive DropsDatatype (context : Context) (entries : List (String × Json)) (value : Json) :
    Prop where
  | besideLanguage {languageKey tag key : String} {type : Json} (held : (key, type) ∈ entries)
      (meaning : context.meaning key = .keyword .type)
      (spoken : context.entryFor? entries .language = some (languageKey, .string tag))
      (text : value.string?.isSome = true)
      (differs : context.datatypeIri? type ≠ some Vocabulary.rdfLangString)
  | other {firstKey key : String} {first type : Json} (held : (key, type) ∈ entries)
      (meaning : context.meaning key = .keyword .type)
      (typed : context.entryFor? entries .type = some (firstKey, first))
      (differs : context.datatypeIri? type ≠ context.datatypeIri? first)

/-- The value objects with a scalar that are warned about: the first datatype is unusable, or the
first language is no tag and the scalar is a text. -/
inductive Complains (context : Context) (entries : List (String × Json)) (value : Json) :
    Prop where
  | datatype {key : String} {type : Json}
      (typed : context.entryFor? entries .type = some (key, type))
      (unusable : type.string?.bind (context.validIri? · true) = none)
  | language {key tag text : String}
      (spoken : context.entryFor? entries .language = some (key, .string tag))
      (held : value = .string text) (invalid : LanguageTag.normalize? tag = none)

section Matches

variable {context : Context} {target : Variable} {entries : List (String × Json)}
  {valueKey : String} {value : Json} {scalar : Scalar}

/-- An entry for a keyword is the first one, or there is one before it. -/
theorem exists_entryFor? {keyword : Keyword} {key : String} {part : Json}
    (held : (key, part) ∈ entries) (meaning : context.meaning key = .keyword keyword) :
  ∃ firstKey first, context.entryFor? entries keyword = some (firstKey, first) ∧
    (firstKey, first) ∈ entries ∧ context.meaning firstKey = .keyword keyword
  := by
  have hsome : (context.entryFor? entries keyword).isSome = true := by
    rw [Context.entryFor?, List.find?_isSome]
    exact ⟨_, held, by simp [meaning]⟩
  obtain ⟨⟨firstKey, first⟩, hfirst⟩ := Option.isSome_iff_exists.mp hsome
  refine ⟨firstKey, first, hfirst, Context.mem_of_entryFor? hfirst, ?_⟩
  simpa using List.find?_some hfirst

/-- A value object with a scalar has a warning when it complains. -/
theorem warnings_ne_nil_iff (context : Context) (target : Variable)
    (entries : List (String × Json)) (valueKey : String) (known : value.isPlaceholder = false)
    (held : value.scalar? = some scalar) :
  (matchOf context target entries valueKey value).warnings ≠ []
    ↔ Complains context entries value
  := by
  rw [matchOf, if_neg (by simp [known])]
  constructor
  · intro hwarned
    obtain ⟨warning, hmem⟩ := List.exists_mem_of_ne_nil _ hwarned
    simp only [List.mem_append, mem_datatypeIn, mem_constantOf, held, reduceCtorEq, false_and,
      or_false] at hmem
    obtain ⟨key, type, typed, unusable, -⟩ | ⟨key, tag, text, spoken, rfl, invalid, -⟩ := hmem
    · exact .datatype typed unusable
    · exact .language spoken rfl invalid
  · rintro (⟨typed, unusable⟩ | ⟨spoken, rfl, invalid⟩)
    · apply List.ne_nil_of_mem
      apply List.mem_append_left
      exact mem_datatypeIn.mpr ⟨_, _, typed, unusable, rfl⟩
    · apply List.ne_nil_of_mem
      apply List.mem_append_right
      exact mem_constantOf.mpr (.inl ⟨_, _, _, spoken, rfl, invalid, rfl⟩)

/-- What the term of a value object with a scalar is: a tagged string, or a literal under a
datatype. -/
theorem term_cases (target : Variable) (valueKey : String) (known : value.isPlaceholder = false)
    (held : value.scalar? = some scalar) (calm : ¬ Complains context entries value) :
  (∃ key tag text, context.entryFor? entries .language = some (key, .string tag) ∧
      value = .string text ∧
      (matchOf context target entries valueKey value).term
        = .literal (.tagged text (LanguageTag.lower tag)))
    ∨ ((∀ key tag, context.entryFor? entries .language = some (key, .string tag) →
        value.string? = none) ∧
      (matchOf context target entries valueKey value).term
        = .literal (withDatatype scalar (datatypeIn context entries).1))
  := by
  have hterm : (matchOf context target entries valueKey value).term = .literal
      (literalOf scalar (languageIn context entries) (datatypeIn context entries).1).1 := by
    simp only [matchOf, known, Bool.false_eq_true, if_false, constantOf, held]
  rw [hterm]
  by_cases hspoken : ∃ key tag text, context.entryFor? entries .language = some (key, .string tag)
      ∧ value = .string text
  · left
    obtain ⟨key, tag, text, spoken, rfl⟩ := hspoken
    obtain rfl : .string text = scalar := Option.some.inj held
    refine ⟨key, tag, text, spoken, rfl, ?_⟩
    cases hnormal : LanguageTag.normalize? tag with
    | none => exact absurd (.language spoken rfl hnormal) calm
    | some normal =>
        obtain rfl := LanguageTag.eq_lower_of_normalize? hnormal
        simp [literalOf, languageIn, spoken, Json.string?, hnormal]
  · right
    constructor
    · intro key tag spoken
      rw [Option.eq_none_iff_forall_ne_some]
      intro text htext
      exact hspoken ⟨key, tag, text, spoken, Json.string?_eq_some.mp htext⟩
    · cases scalar with
      | string text =>
          have hnone : languageIn context entries = none := by
            rw [Option.eq_none_iff_forall_ne_some]
            rintro ⟨key, tag⟩ hlanguage
            simp only [languageIn, Option.bind_eq_some_iff, Option.map_eq_some_iff,
              Json.string?_eq_some, Prod.mk.injEq] at hlanguage
            obtain ⟨⟨key', language⟩, spoken, tag', htag, rfl, rfl⟩ := hlanguage
            simp only at htag
            subst htag
            cases value with
            | string other => exact hspoken ⟨_, _, _, spoken, rfl⟩
            | _ => cases held
          rw [hnone, literalOf]
          simp
      | _ => rw [literalOf]; simp

/-- The first datatype that a value object without complaint names is the one that its literal
gets. -/
theorem datatypeIri?_first {key : String} {type : Json}
    (typed : context.entryFor? entries .type = some (key, type))
    (calm : ¬ Complains context entries value) :
  ∃ iri, context.datatypeIri? type = some iri ∧ (datatypeIn context entries).1 = some iri
  := by
  cases htype : type.string?.bind (context.validIri? · true) with
  | none => exact absurd (.datatype typed htype) calm
  | some iri =>
      refine ⟨iri, ?_, by simp [datatypeIn, typed, datatypeOf, htype]⟩
      obtain ⟨text, htext, hiri⟩ := Option.bind_eq_some_iff.mp htype
      rw [Context.datatypeIri?, htext, Option.bind_some]
      exact (Option.filter_eq_some_iff.mp hiri).1

/-- Without complaint, the term is in every language that the value object names unless it drops
one. -/
theorem inLanguage_iff (target : Variable) (valueKey : String)
    (known : value.isPlaceholder = false) (held : value.scalar? = some scalar)
    (calm : ¬ Complains context entries value) :
  (∀ key language, (key, language) ∈ entries → context.meaning key = .keyword .language →
      (matchOf context target entries valueKey value).term.InLanguage language)
    ↔ ¬ DropsLanguage context entries value
  := by
  obtain ⟨firstKey, first, text, spoken, rfl, hterm⟩ | ⟨wordless, hterm⟩ :=
    term_cases target valueKey known held calm
  · rw [hterm]
    constructor
    · rintro heeded (⟨hmem, meaning, silent⟩ | ⟨-, -, silent⟩ | ⟨hmem, meaning, spoken', differs⟩)
      · obtain ⟨_, tag, rfl, -⟩ := heeded _ _ hmem meaning
        cases silent
      · cases silent
      · obtain ⟨_, tag, htag, hsame⟩ := heeded _ _ hmem meaning
        obtain rfl := Json.string.inj htag
        obtain ⟨rfl, hfirst⟩ := Prod.mk.inj (Option.some.inj (spoken.symm.trans spoken'))
        obtain rfl := Json.string.inj hfirst
        simp only [Term.literal.injEq, Literal.tagged.injEq] at hsame
        exact differs hsame.2.symm
    · intro kept key language hmem meaning
      cases htag : language.string? with
      | none => exact absurd (.noTag hmem meaning htag) kept
      | some tag =>
          obtain rfl := Json.string?_eq_some.mp htag
          refine ⟨text, tag, rfl, ?_⟩
          by_contra hne
          apply kept (.other hmem meaning spoken _)
          intro hsame
          exact hne (by rw [hsame])
  · rw [hterm]
    have hnever : ∀ language, ¬ (Term.literal
        (withDatatype scalar (datatypeIn context entries).1)).InLanguage language := by
      rintro language ⟨text, tag, -, hsame⟩
      exact withDatatype_ne_tagged _ _ _ _ (Term.literal.inj hsame)
    constructor
    · rintro heeded (⟨hmem, meaning, -⟩ | ⟨hmem, meaning, -⟩ | ⟨hmem, meaning, -, -⟩)
      all_goals exact hnever _ (heeded _ _ hmem meaning)
    · intro kept key language hmem meaning
      exfalso
      obtain ⟨firstKey, first, spoken, hfirst, meaning'⟩ := exists_entryFor? hmem meaning
      cases htag : first.string? with
      | none => exact kept (.noTag hfirst meaning' htag)
      | some tag =>
          obtain rfl := Json.string?_eq_some.mp htag
          exact kept (.noText hfirst meaning' (wordless _ _ spoken))

/-- Without complaint, the term is of every datatype that the value object names unless it drops
one. -/
theorem ofDatatype_iff (target : Variable) (valueKey : String)
    (known : value.isPlaceholder = false) (held : value.scalar? = some scalar)
    (calm : ¬ Complains context entries value) :
  (∀ key type, (key, type) ∈ entries → context.meaning key = .keyword .type →
      (matchOf context target entries valueKey value).term.OfDatatype context type)
    ↔ ¬ DropsDatatype context entries value
  := by
  obtain ⟨languageKey, tag, text, spoken, rfl, hterm⟩ | ⟨wordless, hterm⟩ :=
    term_cases target valueKey known held calm
  · have hof : ∀ type, (matchOf context target entries valueKey (.string text)).term.OfDatatype
        context type ↔ context.datatypeIri? type = some Vocabulary.rdfLangString := by
      intro type
      simp [Term.OfDatatype, hterm, Literal.datatype]
    simp only [hof]
    constructor
    · rintro heeded (⟨hmem, meaning, -, -, differs⟩ | ⟨hmem, meaning, typed, differs⟩)
      · exact differs (heeded _ _ hmem meaning)
      · obtain ⟨_, _, typed', hfirst, meaning'⟩ := exists_entryFor? hmem meaning
        obtain ⟨rfl, rfl⟩ := Prod.mk.inj (Option.some.inj (typed.symm.trans typed'))
        exact differs ((heeded _ _ hmem meaning).trans (heeded _ _ hfirst meaning').symm)
    · intro kept key type hmem meaning
      by_contra hne
      exact kept (.besideLanguage hmem meaning spoken rfl hne)
  · constructor
    · rintro heeded (⟨-, -, spoken, text, -⟩ | ⟨hmem, meaning, typed, differs⟩)
      · rw [wordless _ _ spoken] at text
        cases text
      · obtain ⟨_, _, typed', hfirst, meaning'⟩ := exists_entryFor? hmem meaning
        obtain ⟨rfl, rfl⟩ := Prod.mk.inj (Option.some.inj (typed.symm.trans typed'))
        obtain ⟨literal, hliteral, htype⟩ := heeded _ _ hmem meaning
        obtain ⟨literal', hliteral', hother⟩ := heeded _ _ hfirst meaning'
        obtain rfl := Term.literal.inj (hliteral.symm.trans hliteral')
        exact differs (htype.trans hother.symm)
    · intro kept key type hmem meaning
      obtain ⟨firstKey, first, typed, -, -⟩ := exists_entryFor? hmem meaning
      obtain ⟨iri, hfirst, hiri⟩ := datatypeIri?_first typed calm
      refine ⟨_, hterm, ?_⟩
      rw [hiri, withDatatype, Literal.datatype_ofDatatype, ← hfirst]
      by_contra hne
      exact kept (.other hmem meaning typed hne)

/-- Every qualifier of a constant takes effect or there is a warning, except for exactly the dropped
ones of a value object without complaint. -/
theorem heedsQualifiers_iff (known : value.isPlaceholder = false)
    (held : value.scalar? = some scalar) :
  HeedsQualifiers context entries (matchOf context target entries valueKey value)
    ↔ (DropsLanguage context entries value ∨ DropsDatatype context entries value →
      Complains context entries value)
  := by
  have hwarned := warnings_ne_nil_iff context target entries valueKey known held
  by_cases calm : Complains context entries value
  · have hloud := hwarned.mpr calm
    simp [HeedsQualifiers, calm, hloud]
  · have hsilent := mt hwarned.mp calm
    simp only [calm, imp_false, not_or]
    rw [← inLanguage_iff target valueKey known held calm,
      ← ofDatatype_iff target valueKey known held calm]
    simp only [HeedsQualifiers, hsilent, or_false]
    constructor
    · intro heeded
      exact ⟨fun key value hmem => (heeded key value hmem).1,
        fun key value hmem => (heeded key value hmem).2⟩
    · rintro ⟨hlanguage, hdatatype⟩ key value hmem
      exact ⟨hlanguage key value hmem, hdatatype key value hmem⟩

end Matches

end ValueObject

/-! ### Readings -/

open ValueObject in
/-- A value object with a scalar is matched, and its qualifiers take effect or a warning is given,
exactly unless it drops one of them and is not warned about for another reason. -/
theorem qualifiers_heeded_iff (setup : Setup) (frame : Frame) {context : Context}
    {entries : List (String × Json)} {key : String} {value : Json} {scalar : Scalar}
    (entered : setup.enter frame.context (entries.lookup Keyword.context.text) = .ok context)
    (valued : context.entryFor? entries .value = some (key, value))
    (known : value.isPlaceholder = false) (held : value.scalar? = some scalar) :
  ∃ found, setup.run ⟨.production .valueObject, .object entries, frame⟩ = .ok found ∧
    (HeedsQualifiers context entries found
      ↔ (DropsLanguage context entries value ∨ DropsDatatype context entries value →
        Complains context entries value))
  := by
  refine ⟨matchOf context frame.target entries key value, ?_, heedsQualifiers_iff known held⟩
  simp only [run_valueObject, entered, ok_bind, valued]

/-- A value object for a title, under a language. -/
def hope (language : Json) : List (String × Json) :=
  [("@value", .string "Hope"), ("@language", language)]

/-- The value object drops no language that is a text, and names no datatype. -/
theorem hope_keeps (tag : String) :
  ¬ (ValueObject.DropsLanguage {} (hope (.string tag)) (.string "Hope")
    ∨ ValueObject.DropsDatatype {} (hope (.string tag)) (.string "Hope"))
  := by
  have hvalue : ({} : Context).meaning "@value" = .keyword .value := by decide +kernel
  have hlanguage : ({} : Context).meaning "@language" = .keyword .language := by decide +kernel
  have hmem {key : String} {part : Json} (held : (key, part) ∈ hope (.string tag)) :
      (key = "@value" ∧ part = .string "Hope") ∨ (key = "@language" ∧ part = .string tag) := by
    simpa [hope] using held
  have htype {key : String} {part : Json} (held : (key, part) ∈ hope (.string tag)) :
      ({} : Context).meaning key ≠ .keyword .type := by
    obtain ⟨rfl, -⟩ | ⟨rfl, -⟩ := hmem held
    · simp [hvalue]
    · simp [hlanguage]
  rintro ((⟨held, -, wordless⟩ | ⟨-, -, wordless⟩ | ⟨held, meaning, spoken, differs⟩) |
    (⟨held, meaning, -, -, -⟩ | ⟨held, meaning, -, -⟩))
  · obtain ⟨-, rfl⟩ | ⟨-, rfl⟩ := hmem held
    · cases wordless
    · cases wordless
  · cases wordless
  · obtain ⟨-, htag⟩ := Prod.mk.inj (Option.some.inj spoken)
    obtain ⟨rfl, -⟩ | ⟨-, hother⟩ := hmem held
    · cases hvalue.symm.trans meaning
    · apply differs
      rw [Json.string.inj hother, Json.string.inj htag]
  · exact htype held meaning
  · exact htype held meaning

/-- The title takes its language from a text, and drops a number without a warning. -/
theorem qualifiers_heeded_iff_hope :
  let frame : Frame := { target := ⟨"root·title"⟩, context := {} }
  (∃ found, ({} : Setup).run ⟨.production .valueObject, .object (hope (.string "en")), frame⟩
      = .ok found ∧ ValueObject.HeedsQualifiers {} (hope (.string "en")) found) ∧
    ∃ found, ({} : Setup).run
        ⟨.production .valueObject, .object (hope (.number (.integer 7))), frame⟩ = .ok found ∧
      ¬ ValueObject.HeedsQualifiers {} (hope (.number (.integer 7))) found
  := by
  intro frame
  have entered (language : Json) : ({} : Setup).enter frame.context
      ((hope language).lookup Keyword.context.text) = .ok {} := rfl
  constructor
  · obtain ⟨found, h, hiff⟩ := qualifiers_heeded_iff {} frame (entered (.string "en")) rfl rfl rfl
    exact ⟨found, h, hiff.mpr fun hdrops => absurd hdrops (hope_keeps "en")⟩
  · obtain ⟨found, h, hiff⟩ :=
      qualifiers_heeded_iff {} frame (entered (.number (.integer 7))) rfl rfl rfl
    refine ⟨found, h, fun heeded => ?_⟩
    have hdrops : ValueObject.DropsLanguage {} (hope (.number (.integer 7))) (.string "Hope") :=
      .noTag (List.mem_cons_of_mem _ (List.mem_singleton_self _)) (by decide +kernel) rfl
    rcases hiff.mp heeded (.inl hdrops) with ⟨typed, -⟩ | ⟨spoken, -, -⟩
    · cases typed
    · cases spoken

/-- A title whose language is a number is matched without a language, and nothing warns about it. -/
theorem language_dropped_title :
  let title := hope (.number (.integer 7))
  (∃ query, ({} : Setup).grammar.query (.object [("ex:title", .object title)]) = .ok query ∧
      query.warnings = []) ∧
    ∃ found, ({} : Setup).run ⟨.production .valueObject, .object title,
        { target := ⟨"root·title"⟩, context := {} }⟩ = .ok found ∧
      found.warnings = [] ∧ ¬ found.term.InLanguage (.number (.integer 7))
  := by
  intro title
  constructor
  · have houtcome : (({} : Setup).grammar.query
        (.object [("ex:title", .object title)])).toOption.map Query.warnings = some [] := by
      decide +kernel
    exact exists_of_outcome _ _ houtcome
  · refine ⟨_, rfl, rfl, ?_⟩
    rintro ⟨text, tag, hlanguage, -⟩
    cases hlanguage

end LinkedQuery
