import LinkedQuery.Proofs.Reading.Log
import Mathlib.Tactic.Use

/-!
# Datatypes of scalars

A scalar gets a datatype from the coercion of its term or from the value object around it.  Both
make the same literal, unless the datatype is no IRI: then a coercion makes a plain text of the
scalar, and a value object leaves it as it is.  `typing_agrees_iff` says for which scalars this is
the same.
-/

namespace LinkedQuery

/-! ### Literals -/

/-- Only a text is the plain literal of its own text. -/
theorem Scalar.literal_eq_plain_iff (scalar : Scalar) :
  scalar.literal = .plain scalar.lexical ↔ ∃ text, scalar = .string text
  := by
  cases scalar with
  | boolean value => simp [literal]
  | number value => cases value <;> simp [literal, ofNumber]
  | string text => simp [literal, lexical]

/-- A datatype that may be no IRI, and one that is left out then, make the same literal exactly when
it is an IRI or the scalar is a text. -/
theorem Scalar.ofUncheckedDatatype_eq_iff (scalar : Scalar) (datatype : String) :
  Literal.ofUncheckedDatatype scalar.lexical datatype
      = ValueObject.withDatatype scalar ((some datatype).filter Iri.isValid)
    ↔ Iri.isValid datatype = true ∨ ∃ text, scalar = .string text
  := by
  cases valid : Iri.isValid datatype with
  | true => simp [Literal.ofUncheckedDatatype, ValueObject.withDatatype, Option.filter_some, valid]
  | false =>
      rw [eq_comm, Literal.ofUncheckedDatatype, Option.filter_some, valid]
      simpa [ValueObject.withDatatype] using scalar.literal_eq_plain_iff

/-! ### Value objects -/

namespace ValueObject

/-- The entries of a value object with a scalar alone. -/
def bareEntries (scalar : Scalar) : List (String × Json) :=
  [(Keyword.value.text, scalar.json)]

/-- The entries of a value object with a scalar and the name of its datatype. -/
def typedEntries (scalar : Scalar) (type : String) : List (String × Json) :=
  [(Keyword.value.text, scalar.json), (Keyword.type.text, .string type)]

theorem literalOf_none (scalar : Scalar) (datatype : Option String) :
  literalOf scalar none datatype = (withDatatype scalar datatype, [])
  := by
  cases scalar <;> rfl

section Matches

variable (context : Context) (target : Variable) {scalar : Scalar}

/-- Without a language a constant has the datatype that its entries name. -/
theorem matchOf_speechless (given : scalar ≠ .string placeholder) {entries : List (String × Json)}
    (speechless : context.entryFor? entries .language = none) (key : String) :
  matchOf context target entries key scalar.json
    = { term := .literal (withDatatype scalar (datatypeIn context entries).1)
        template := .around entries key (.value scalar.json)
        warnings := (datatypeIn context entries).2 }
  := by
  simp [matchOf, scalar.isPlaceholder_json given, constantOf, languageIn, speechless,
    literalOf_none]

theorem entryFor?_bareEntries (scalar : Scalar) (keyword : Keyword) :
  context.entryFor? (bareEntries scalar) keyword
    = if keyword = .value then some (Keyword.value.text, scalar.json) else none
  := by
  simp [bareEntries, Context.entryFor?_text, eq_comm]

theorem entryFor?_typedEntries (scalar : Scalar) (type : String) (keyword : Keyword) :
  context.entryFor? (typedEntries scalar type) keyword
    = if keyword = .value then some (Keyword.value.text, scalar.json)
      else if keyword = .type then some (Keyword.type.text, .string type)
      else none
  := by
  cases keyword <;> simp [Context.entryFor?, typedEntries, context.meaning_text]

theorem datatypeIn_bareEntries :
  datatypeIn context (bareEntries scalar) = (none, [])
  := by
  simp [datatypeIn, entryFor?_bareEntries]

theorem datatypeIn_typedEntries {type datatype : String}
    (expands : context.expand? type true = some datatype) :
  (datatypeIn context (typedEntries scalar type)).1 = (some datatype).filter Iri.isValid
  := by
  simp only [datatypeIn, entryFor?_typedEntries, datatypeOf, Json.string?, Option.bind_some,
    Context.validIri?, expands, reduceCtorEq, if_false, if_true]
  cases (some datatype).filter Iri.isValid <;> rfl

end Matches

end ValueObject

/-! ### Readings -/

section Readings

variable (setup : Setup) (frame : Frame)

open ValueObject in
theorem run_bareEntries (scalar : Scalar) :
  setup.run ⟨.production .valueObject, .object (bareEntries scalar), frame⟩
    = .ok (matchOf frame.context frame.target (bareEntries scalar) Keyword.value.text scalar.json)
  := (Ends.valueObject rfl (entryFor?_bareEntries frame.context scalar .value)).run

open ValueObject in
theorem run_typedEntries (scalar : Scalar) (type : String) :
  setup.run ⟨.production .valueObject, .object (typedEntries scalar type), frame⟩
    = .ok (matchOf frame.context frame.target (typedEntries scalar type) Keyword.value.text
        scalar.json)
  := (Ends.valueObject rfl (entryFor?_typedEntries frame.context scalar type .value)).run

open ValueObject in
/-- A scalar under a coercion to a datatype, and a value object with the scalar and a name of the
datatype, stand for the same exactly when the datatype is an IRI or the scalar is a text.  A scalar
without a coercion and a value object with the scalar alone are read the same. -/
theorem typing_agrees_iff :
  (∀ (scalar : Scalar) (datatype type : String), scalar ≠ .string placeholder →
      frame.context.expand? type true = some datatype →
      ∃ coerced typed,
        setup.run ⟨.production .scalar, scalar.json,
            { frame with coercion := some (.datatype datatype) }⟩ = .ok coerced
        ∧ setup.run ⟨.production .valueObject, .object (typedEntries scalar type), frame⟩
            = .ok typed
        ∧ (coerced.term = typed.term
            ↔ Iri.isValid datatype = true ∨ ∃ text, scalar = .string text))
    ∧ ∀ scalar : Scalar, ∃ bare wrapped,
        setup.run ⟨.production .scalar, scalar.json, { frame with coercion := none }⟩ = .ok bare
        ∧ setup.run ⟨.production .valueObject, .object (bareEntries scalar), frame⟩ = .ok wrapped
        ∧ bare.term = wrapped.term ∧ bare.pattern = wrapped.pattern
        ∧ bare.projections = wrapped.projections
  := by
  constructor
  · intro scalar datatype type given expands
    refine ⟨_, _, run_scalar_json setup given _, run_typedEntries setup frame scalar type, ?_⟩
    have hspeechless : frame.context.entryFor? (typedEntries scalar type) .language = none :=
      entryFor?_typedEntries frame.context scalar type .language
    have hcoerced : (scalar.constant frame.context (some (.datatype datatype))).1
        = .literal (.ofUncheckedDatatype scalar.lexical datatype) := by
      cases scalar <;> rfl
    rw [matchOf_speechless _ _ given hspeechless, datatypeIn_typedEntries _ expands,
      Scalar.matchOf, hcoerced, Term.literal.injEq, scalar.ofUncheckedDatatype_eq_iff]
  · intro scalar
    by_cases given : scalar = .string placeholder
    · subst given
      exact ⟨placeholderMatch frame.target, _, rfl, run_bareEntries setup frame _, rfl, rfl, rfl⟩
    · refine ⟨_, _, run_scalar_json setup given _, run_bareEntries setup frame scalar, ?_⟩
      have hspeechless : frame.context.entryFor? (bareEntries scalar) .language = none :=
        entryFor?_bareEntries frame.context scalar .language
      have hplain : (scalar.constant frame.context none).1 = .literal scalar.literal := by
        cases scalar <;> rfl
      rw [matchOf_speechless _ _ given hspeechless, datatypeIn_bareEntries]
      exact ⟨hplain, rfl, rfl⟩

end Readings

/-- A number of years has the same literal either way, as long as the name of the datatype is an
IRI. -/
theorem typing_agrees_iff_age :
  let age : Scalar := .number (.integer 5)
  let frame : Frame := { target := ⟨"root·age"⟩, context := {} }
  (∃ coerced typed,
      ({} : Setup).run ⟨.production .scalar, age.json,
          { frame with coercion := some (.datatype "ex:years") }⟩ = .ok coerced
      ∧ ({} : Setup).run ⟨.production .valueObject,
          .object (ValueObject.typedEntries age "ex:years"), frame⟩ = .ok typed
      ∧ coerced.term = typed.term)
    ∧ ∃ coerced typed,
      ({} : Setup).run ⟨.production .scalar, age.json,
          { frame with coercion := some (.datatype "ex:a b") }⟩ = .ok coerced
      ∧ ({} : Setup).run ⟨.production .valueObject,
          .object (ValueObject.typedEntries age "ex:a b"), frame⟩ = .ok typed
      ∧ coerced.term ≠ typed.term
  := by
  intro age frame
  have given : age ≠ .string placeholder := by decide
  constructor
  · have expands : frame.context.expand? "ex:years" true = some "ex:years" := by decide +kernel
    obtain ⟨coerced, typed, hcoerced, htyped, hiff⟩ :=
      (typing_agrees_iff {} frame).1 age "ex:years" "ex:years" given expands
    have valid : Iri.isValid "ex:years" = true := by decide +kernel
    use coerced, typed, hcoerced, htyped, hiff.mpr (.inl valid)
  · have expands : frame.context.expand? "ex:a b" true = some "ex:a b" := by decide +kernel
    obtain ⟨coerced, typed, hcoerced, htyped, hiff⟩ :=
      (typing_agrees_iff {} frame).1 age "ex:a b" "ex:a b" given expands
    have invalid : Iri.isValid "ex:a b" = false := by decide +kernel
    use coerced, typed, hcoerced, htyped
    intro same
    rcases hiff.mp same with valid | ⟨text, htext⟩
    · cases invalid.symm.trans valid
    · exact Scalar.noConfusion htext

/-- An age whose term is coerced to a datatype that is no IRI. -/
def coercedAge : Json :=
  .object
    [("@context", .object
        [("age", .object [("@id", .string "ex:age"), ("@type", .string "ex:a b")])]),
      ("age", .number (.integer 5))]

/-- The same age with the datatype in a value object. -/
def typedAge : Json :=
  .object
    [("ex:age", .object (ValueObject.typedEntries (.number (.integer 5)) "ex:a b"))]

/-- The pattern for someone of an age. -/
def agePattern (age : Literal) : Pattern :=
  .project (.basic [⟨.var ⟨"root"⟩, .iri "ex:age", .literal age⟩]) []

/-- The coercion makes a plain text of the age, and nothing warns about it.  The value object leaves
it an integer. -/
theorem typing_disagrees_age :
  (∃ query, ({} : Setup).grammar.query coercedAge = .ok query
      ∧ query.pattern = agePattern (.plain "5") ∧ query.warnings = [])
    ∧ ∃ query, ({} : Setup).grammar.query typedAge = .ok query
      ∧ query.pattern = agePattern (.typed "5" Vocabulary.xsdInteger)
  := by
  constructor
  · have houtcome : (({} : Setup).grammar.query coercedAge).toOption.map
        (fun query => (query.pattern, query.warnings)) = some (agePattern (.plain "5"), []) := by
      decide +kernel
    obtain ⟨query, hquery, hfound⟩ := exists_of_outcome _ _ houtcome
    obtain ⟨hpattern, hwarnings⟩ := Prod.mk.inj hfound
    exact ⟨query, hquery, hpattern, hwarnings⟩
  · have houtcome : (({} : Setup).grammar.query typedAge).toOption.map Query.pattern
        = some (agePattern (.typed "5" Vocabulary.xsdInteger)) := by
      decide +kernel
    exact exists_of_outcome _ _ houtcome

end LinkedQuery
