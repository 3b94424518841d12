import LinkedQuery.Element.Grammar
import LinkedQuery.Pattern.Text

/-!
# Compiling documents

`Grammar.query` makes a `Query` of a query document: the template of the results, the pattern of
their solutions, projected to the variables that the template needs, and the warnings about the
document.
-/

namespace LinkedQuery

/-- What a document asks for. -/
structure Query where
  template : Template
  pattern : Pattern
  warnings : List Warning

namespace Query

/-- The selected variables. -/
def projections (query : Query) : List Variable :=
  match query.pattern with
  | .project _ selected => selected
  | _ => []

/-- The query as text. -/
def text (query : Query) : String :=
  query.pattern.queryText

/-- The query as a JSON value. -/
def json (query : Query) : Json :=
  .object
    [("intermediateResult", query.template.json),
      ("sparql", .string query.text),
      ("warnings", .array (query.warnings.map Warning.json))]

end Query

/-- The variables that a query selects: each at its first place. -/
def distinct (projections : List Variable) : List Variable :=
  projections.eraseDups

/-- The query for a match. -/
def Match.query (found : Match) : Query where
  template := found.template
  pattern := .project found.pattern (distinct found.projections)
  warnings := found.warnings

/-- The query of a document, which binds the root variable and begins without a context. -/
def Grammar.query (grammar : Grammar) (document : Json) : Except QueryFault Query := do
  let found ← grammar.read .document document ⟨grammar.naming.rootVariable, {}, none⟩
  .ok found.query

end LinkedQuery
