import LinkedQuery.Json.Text
import LinkedQuery.Rdf.Term

/-!
# Scalars

A `Scalar` is a JSON value without parts.  `Scalar.literal` is the literal it stands for by
itself: strings are plain, numbers and truth values have the datatype of their kind.
`Scalar.lexical` is the text it has under another datatype.  The two differ for doubles, which
`Scalar.literal` writes without an exponent, however many digits that takes.
-/

namespace LinkedQuery

/-- A value without parts, other than null. -/
inductive Scalar where
  | boolean (value : Bool)
  | number (value : Number)
  | string (text : String)
deriving DecidableEq, Repr

/-- The scalar that a value is. -/
def Json.scalar? : Json → Option Scalar
  | .boolean value => some (.boolean value)
  | .number value => some (.number value)
  | .string text => some (.string text)
  | _ => none

namespace Scalar

/-- Doubles in literals never show an exponent, nor a decimal that is not there. -/
def style : DecimalStyle where
  tie := .up
  wholeDecimal := false
  plain _ := true

/-- The text of a truth value. -/
def booleanText (value : Bool) : String :=
  if value then "true" else "false"

/-- The text of a scalar under a datatype of its own. -/
def lexical : Scalar → String
  | .boolean value => booleanText value
  | .number value => value.text
  | .string text => text

/-- The literal of a number. -/
def ofNumber : Number → Literal
  | .integer value => .typed (String.ofList (integerDigits value)) Vocabulary.xsdInteger
  | .double value => .typed (String.ofList (value.text style)) Vocabulary.xsdDouble

/-- The literal of a scalar by itself. -/
def literal : Scalar → Literal
  | .boolean value => .typed (booleanText value) Vocabulary.xsdBoolean
  | .number value => ofNumber value
  | .string text => .plain text

/-- The scalar as a JSON value. -/
def json : Scalar → Json
  | .boolean value => .boolean value
  | .number value => .number value
  | .string text => .string text

end Scalar

end LinkedQuery
