import LinkedQuery.Rdf.Scalar
import LinkedQuery.Text.Quoted
import LinkedQuery.Yaml.Basic
import LinkedQuery.Yaml.Plain

/-!
# Mismatches

A `Yaml.Mismatch` says why a value is not what its place asks for: it is of another kind than the
`Expectation`, it lies too deep, it is too great a number, or the text breaks off in it.  Messages
name the `Path` to the value and its place in the text.
-/

namespace LinkedQuery.Yaml

/-- A step from a value to one of its parts. -/
inductive PathStep where
  | key (name : String)
  /-- A key that is no text. -/
  | unknownKey
  | item (index : Nat)
deriving DecidableEq, Repr

/-- The steps from a document to one of its values. -/
abbrev Path := List PathStep

/-- The text of a path. -/
def Path.text (path : Path) : String :=
  path.foldl (fun before step =>
    let joint := if before.isEmpty then before else before ++ "."
    match step with
    | .key name => joint ++ name
    | .unknownKey => joint ++ "?"
    | .item index => before ++ "[" ++ index.repr ++ "]") ""

/-- The path in front of a message; the whole document is not named. -/
def Path.intro (path : Path) : String :=
  if path.isEmpty then "" else path.text ++ ": "

/-- What a place asks for. -/
inductive Expectation where
  | text
  /-- The first key of a mapping, if any key will do. -/
  | anyKey
  | fieldName
  | boolean
  | mapping
  | settings
deriving DecidableEq, Repr

/-- The expectation as messages name it. -/
def Expectation.noun : Expectation → String
  | .text => "a string"
  | .anyKey => "a string key"
  | .fieldName => "field identifier"
  | .boolean => "a boolean"
  | .mapping => "a map"
  | .settings => "struct TranslatorConfig"

/-- Doubles in messages never show an exponent, and always a decimal. -/
def messageStyle : DecimalStyle where
  tie := .up
  wholeDecimal := true
  plain _ := true

/-- What a plain scalar reads as, as messages name it.  Numbers of more than 64 bits are told
apart. -/
def Plain.noun : Plain → String
  | .null => "unit value"
  | .boolean value => "boolean `" ++ Scalar.booleanText value ++ "`"
  | .integer value =>
    "integer `" ++ String.ofList (integerDigits value) ++ "`"
      ++ (if fitsBits 64 value then "" else if value < 0 then " as i128" else " as u128")
  | .double value => "floating point `" ++ String.ofList (value.text messageStyle) ++ "`"
  | .infinity negative => "floating point `" ++ (if negative then "-inf" else "inf") ++ "`"
  | .notANumber => "floating point `NaN`"
  | .string text => "string " ++ quoted text

/-- A value as messages name it. -/
def noun : Yaml → String
  | .scalar true text _ => (Plain.ofText text).noun
  | .scalar false text _ => "string " ++ quoted text
  | .sequence _ _ => "sequence"
  | _ => "map"

/-- Why a value is not what its place asks for. -/
inductive Mismatch where
  | broken (fault : Fault)
  | kind (found : Yaml) (expected : Expectation) (path : Path)
  | outOfRange (path : Path) (mark : Mark)
  | tooDeep (mark : Mark)
deriving Repr

/-- The text of a mismatch. -/
def Mismatch.message : Mismatch → String
  | .broken fault => fault.message
  | .kind found expected path =>
    path.intro ++ "invalid type: " ++ found.noun ++ ", expected " ++ expected.noun
      ++ found.mark.suffix
  | .outOfRange path mark => path.intro ++ "JSON number out of range" ++ mark.suffix
  | .tooDeep mark => "recursion limit exceeded" ++ mark.suffix

/-- The mismatch of a value of another kind, unless the text breaks off there. -/
def mismatch (found : Yaml) (expected : Expectation) (path : Path) : Mismatch :=
  match found with
  | .broken fault => .broken fault
  | found => .kind found expected path

end LinkedQuery.Yaml
