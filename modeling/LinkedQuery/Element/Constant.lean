import LinkedQuery.Element.Parts
import LinkedQuery.Rdf.Scalar

/-!
# Scalars and value objects

A scalar is a constant, an IRI or a literal as the coercion of its term says.  A value object holds
a scalar under `@value` and says itself which literal it is, by a datatype under `@type` or a
language under `@language`; a language, which only strings have, goes before a datatype.  The
placeholder in the place of the scalar binds the variable of the frame, and no qualifier applies
to it.
-/

namespace LinkedQuery

/-! ### Scalars -/

/-- A literal with a datatype that may be no IRI; then the literal is plain. -/
def Literal.ofUncheckedDatatype (text datatype : String) : Literal :=
  if Iri.isValid datatype then .ofDatatype text datatype else .plain text

/-- The constant that a scalar stands for, and the warnings about it. -/
def Scalar.constant (scalar : Scalar) (context : Context) (coercion : Option Coercion) :
    Term × List Warning :=
  let reference (text : String) (inVocab : Bool) : Term × List Warning :=
    match context.validIri? text inVocab with
    | some iri => (.iri iri, [])
    | none => (.literal (.plain text), [⟨.unusableIri, []⟩])
  match scalar, coercion with
  | .string text, some .id => reference text false
  | .string text, some .vocab => reference text true
  | scalar, some .json => (.literal (.ofDatatype scalar.json.text Vocabulary.rdfJson), [])
  | scalar, some (.datatype iri) => (.literal (.ofUncheckedDatatype scalar.lexical iri), [])
  | scalar, _ => (.literal scalar.literal, [])

/-- Reads a scalar. -/
def Scalar.read (parts : Parts Element) : Reading := fun frame =>
  if parts.value.isPlaceholder then
    .ok { term := .var frame.target
          template := .native frame.target
          projections := [frame.target] }
  else
    match parts.value.scalar? with
    | some scalar =>
      let (term, warnings) := scalar.constant frame.context frame.coercion
      .ok { term := term, template := .value parts.value, warnings := warnings }
    | none => .error (parts.unexpected .scalar)

/-! ### Value objects -/

namespace ValueObject

/-- The datatype named by an entry, or a warning. -/
def datatypeOf (context : Context) (key : String) (value : Json) : Option String × List Warning :=
  match value.string?.bind (context.validIri? · true) with
  | some iri => (some iri, [])
  | none => (none, [Warning.atKey .unusableDatatype key])

/-- The literal of a scalar with a datatype, if there is one. -/
def withDatatype (scalar : Scalar) (datatype : Option String) : Literal :=
  match datatype with
  | some iri => .ofDatatype scalar.lexical iri
  | none => scalar.literal

/-- The literal of a scalar under the qualifiers of its object. -/
def literalOf (scalar : Scalar) (language : Option (String × String)) (datatype : Option String) :
    Literal × List Warning :=
  match scalar, language with
  | .string text, some (key, tag) =>
    match LanguageTag.normalize? tag with
    | some tag => (.tagged text tag, [])
    | none => (.plain text, [Warning.atKey .invalidLanguage key])
  | scalar, _ => (withDatatype scalar datatype, [])

/-- Reads a value object. -/
def read (setup : Setup) (parts : Parts Element) : Reading := fun frame => do
  let context ← setup.enter frame.context parts.localContext?
  match context.entryFor? parts.entries .value with
  | none => .error (parts.unexpected .valueObject)
  | some (valueKey, element) =>
    let typeEntry := context.entryFor? parts.entries .type
    let languageEntry := context.entryFor? parts.entries .language
    if element.value.isPlaceholder then
      let qualified := typeEntry.isSome || languageEntry.isSome
      .ok { term := .var frame.target
            template := parts.templateWith valueKey (.native frame.target)
            projections := [frame.target]
            warnings := if qualified then [⟨.qualifiedPlaceholder, []⟩] else [] }
    else
      let (datatype, typeWarnings) : Option String × List Warning :=
        match typeEntry with
        | some (key, type) => datatypeOf context key type.value
        | none => (none, [])
      let language := languageEntry.bind fun entry =>
        entry.2.value.string?.map fun tag => (entry.1, tag)
      let (term, warnings) : Term × List Warning :=
        match element.value.scalar? with
        | some scalar =>
          let (literal, warnings) := literalOf scalar language datatype
          (.literal literal, warnings)
        | none => (.var frame.target, [Warning.atKey .notScalar valueKey])
      .ok { term := term
            template := parts.templateWith valueKey (.value element.value)
            warnings := typeWarnings ++ warnings }

end ValueObject

end LinkedQuery
