import LinkedQuery.Json.Basic
import LinkedQuery.Rdf.Term

/-!
# Result templates

A `Template` has the shape of the document it was made from, with the variables at the places
that the solutions of the query fill.  `Template.placeholders` lists those variables, and
`Template.json` is the template as a JSON value.
-/

namespace LinkedQuery

/-- The shape of a result. -/
inductive Template where
  | object (entries : List (String × Template))
  /-- One template for every binding of a variable. -/
  | array (v : Variable) (item : Template)
  /-- The name of the resource that a variable is bound to. -/
  | name (v : Variable)
  /-- The value that a variable is bound to. -/
  | native (v : Variable)
  /-- A value that is known already. -/
  | value (json : Json)
deriving Repr, Inhabited

namespace Template

mutual

/-- The variables of the placeholders, in the order of the document. -/
def placeholders : Template → List Variable
  | .object entries => entryPlaceholders entries
  | .array _ item => placeholders item
  | .name v => [v]
  | .native v => [v]
  | .value _ => []

/-- The variables of the placeholders of some entries. -/
def entryPlaceholders : List (String × Template) → List Variable
  | [] => []
  | (_, template) :: entries => placeholders template ++ entryPlaceholders entries

end

mutual

/-- The template as a JSON value, each node with its kind. -/
def json : Template → Json
  | .object entries =>
    .object [("type", .string "Object"), ("entries", .object (entriesJson entries))]
  | .array v item =>
    .object [("type", .string "Array"), ("variable", .string v.name), ("template", json item)]
  | .name v => .object [("type", .string "NamePlaceholder"), ("variable", .string v.name)]
  | .native v => .object [("type", .string "NativePlaceholder"), ("variable", .string v.name)]
  | .value constant => .object [("type", .string "NativeValue"), ("value", constant)]

/-- The entries of an object as JSON values. -/
def entriesJson : List (String × Template) → List (String × Json)
  | [] => []
  | (key, template) :: entries => (key, json template) :: entriesJson entries

end

end Template

end LinkedQuery
