import LinkedQuery.Context.Processing
import LinkedQuery.Pattern.Basic
import LinkedQuery.Template
import LinkedQuery.Variable.Naming

/-!
# Elements

An element is a JSON value of a query document, read by one of the productions.  A `Frame` says
what surrounds an element: the variable it binds, the context, and the coercion of the term whose
value it is.  Reading an element gives a `Match`, which says how it is matched in the graph, or a
`QueryFault`.  The string `?` is the placeholder for a value that the query finds.
-/

namespace LinkedQuery

/-- The ways to read an element. -/
inductive Production where
  | document
  | nodeObject
  | nodeObjects
  | topLevelGraph
  | graphObject
  | valueObject
  | listObject
  | setObject
  | entryValue
  | scalar
deriving DecidableEq, Repr

/-- What a production reads, as messages name it. -/
def Production.noun : Production → String
  | .document => "a document"
  | .nodeObject => "a node object"
  | .nodeObjects => "an array of node objects"
  | .topLevelGraph => "a top-level graph container"
  | .graphObject => "a graph object"
  | .valueObject => "a value object"
  | .listObject => "a list object"
  | .setObject => "a set object"
  | .entryValue => "an entry value"
  | .scalar => "a string, number or boolean"

/-- Why a document makes no query. -/
inductive QueryFault where
  | context (fault : ContextFault)
  /-- A document that is neither an object nor an array. -/
  | notDocument (found : Json.Kind)
  /-- An item of an array of node objects that is no object. -/
  | notNodeObject (found : Json.Kind)
  /-- The value of a top-level graph that is neither an object nor an array. -/
  | notGraph (found : Json.Kind)
  /-- A document refused by a replaced production. -/
  | refused (reason : String)
  /-- An element that the production does not read. -/
  | unexpected (production : Production) (found : Json.Kind)
deriving Repr

/-- The text of a fault. -/
def QueryFault.message : QueryFault → String
  | .context fault => "Context error: " ++ fault.message
  | .notDocument found =>
    "Invalid document: Expected an object or an array of objects, found " ++ found.noun
  | .notNodeObject found =>
    "Invalid document: Expected an array of node objects, found " ++ found.noun
  | .notGraph found => "Invalid document: @graph must hold node objects, found " ++ found.noun
  | .refused reason => "Invalid document: " ++ reason
  | .unexpected production found => "Expected " ++ production.noun ++ ", found " ++ found.noun

/-- What surrounds an element. -/
structure Frame where
  /-- The variable that the element binds. -/
  target : Variable
  context : Context
  coercion : Option Coercion := none

/-- How an element is matched. -/
structure Match where
  /-- What the element stands for in the graph. -/
  term : Term
  template : Template
  pattern : Pattern := .empty
  /-- The variables that the query selects for the element. -/
  projections : List Variable := []
  /-- Warnings relative to the element. -/
  warnings : List Warning := []

/-- A reading of an element, once its frame is known. -/
abbrev Reading := Frame → Except QueryFault Match

/-- What productions share. -/
structure Setup where
  loader : Loader := Loader.disabled
  naming : Naming := {}

/-- The context of an element with a local context, if it has one. -/
def Setup.enter (setup : Setup) (context : Context) (declared : Option Json) :
    Except QueryFault Context :=
  (context.enter setup.loader declared).mapError .context

/-- The mark of values that the query finds. -/
def placeholder : String := "?"

/-- Whether a value is the placeholder. -/
def Json.isPlaceholder : Json → Bool
  | .string text => text == placeholder
  | _ => false

end LinkedQuery
