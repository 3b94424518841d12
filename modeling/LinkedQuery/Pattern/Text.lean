import LinkedQuery.Pattern.Basic

/-!
# Patterns as text

`Pattern.queryText` writes the query that selects the solutions of a pattern, and
`Pattern.algebraText` writes the algebra expression of the pattern.  In a query the outermost
projection gives the selected variables; an inner projection is a query of its own between braces.
-/

namespace LinkedQuery

/-- The path from a list to its members, as a query writes it. -/
def membersPath : String :=
  "((" ++ iriText Vocabulary.rdfRest ++ ")* / " ++ iriText Vocabulary.rdfFirst ++ ")"

/-- The path from a list to its members, as the algebra writes it. -/
def membersAlgebra : String :=
  "(seq (path* " ++ iriText Vocabulary.rdfRest ++ ") " ++ iriText Vocabulary.rdfFirst ++ ")"

/-- A triple of a query, with the point behind it. -/
def Triple.queryText (triple : Triple) : String :=
  triple.subject.text ++ " " ++ triple.predicate.text ++ " " ++ triple.object.text ++ " ."

/-- A triple of an algebra expression. -/
def Triple.algebraText (triple : Triple) : String :=
  "(triple " ++ triple.subject.text ++ " " ++ triple.predicate.text ++ " "
    ++ triple.object.text ++ ")"

namespace Pattern

/-- A text between braces. -/
def braces (text : String) : String :=
  "\x7b " ++ text ++ " \x7d"

/-- The selection of some variables, of all if there are none. -/
def selection (selected : List Variable) : String :=
  if selected.isEmpty then " *"
  else selected.foldl (fun text v => text ++ " " ++ v.text) ""

/-- A query over a group pattern. -/
def select (selected : List Variable) (group : String) : String :=
  "SELECT" ++ selection selected ++ " WHERE " ++ braces group

/-- The two texts of a pattern: within a group, and as a query of its own. -/
structure Texts where
  group : String
  query : String

/-- The texts of a pattern that projects nothing. -/
def Texts.ofGroup (group : String) : Texts :=
  ⟨group, select [] group⟩

/-- Whether a pattern behind another one would be taken as a change to it. -/
def isModifier : Pattern → Bool
  | .leftJoin _ _ => true
  | _ => false

/-- The texts of a pattern.  A projection of no variables is as good as none. -/
def texts : Pattern → Texts
  | .basic triples =>
    .ofGroup (triples.foldl (fun text triple => text ++ triple.queryText) "")
  | .members list member =>
    .ofGroup (list.text ++ " " ++ membersPath ++ " " ++ member.text ++ " .")
  | .join left right =>
    let behind := (texts right).group
    .ofGroup ((texts left).group ++ " " ++ (if isModifier right then braces behind else behind))
  | .leftJoin left right =>
    .ofGroup ((texts left).group ++ " OPTIONAL " ++ braces (texts right).group)
  | .graph name inner => .ofGroup ("GRAPH " ++ name.text ++ " " ++ braces (texts inner).group)
  | .project inner selected =>
    let query :=
      if selected.isEmpty then (texts inner).query else select selected (texts inner).group
    ⟨braces query, query⟩

/-- The query for the solutions of a pattern. -/
def queryText (pattern : Pattern) : String :=
  pattern.texts.query

/-- The algebra expression of a pattern. -/
def algebraText : Pattern → String
  | .basic triples =>
    "(bgp" ++ triples.foldl (fun text triple => text ++ " " ++ triple.algebraText) "" ++ ")"
  | .members list member =>
    "(path " ++ list.text ++ " " ++ membersAlgebra ++ " " ++ member.text ++ ")"
  | .join left right => "(join " ++ algebraText left ++ " " ++ algebraText right ++ ")"
  | .leftJoin left right => "(leftjoin " ++ algebraText left ++ " " ++ algebraText right ++ ")"
  | .graph name inner => "(graph " ++ name.text ++ " " ++ algebraText inner ++ ")"
  | .project inner selected =>
    "(project (" ++ String.intercalate " " (selected.map Variable.text) ++ ") "
      ++ algebraText inner ++ ")"

end Pattern

end LinkedQuery
