import LinkedQuery.Rdf.Term

/-!
# Graph patterns

A `Pattern` says which solutions a query has.  `Pattern.empty` matches once and binds nothing;
`Pattern.joinAll` leaves empty patterns out and puts adjacent basic patterns together, so
contributions can be combined freely without the pattern growing.
-/

namespace LinkedQuery

/-- A subject, a predicate and an object, any of them possibly a variable. -/
structure Triple where
  subject : Term
  predicate : Name
  object : Term
deriving DecidableEq, Repr

/-- A pattern of triples over a dataset. -/
inductive Pattern where
  /-- All of some triples. -/
  | basic (triples : List Triple)
  /-- The members of a list: any number of steps to the rest of a list, then one to its first. -/
  | members (list member : Term)
  | join (left right : Pattern)
  /-- The left solutions, extended by the right ones where there are any. -/
  | leftJoin (left right : Pattern)
  /-- A pattern within a named graph. -/
  | graph (name : Name) (inner : Pattern)
  /-- The solutions cut down to some variables. -/
  | project (inner : Pattern) (selected : List Variable)
deriving DecidableEq, Repr

namespace Pattern

/-- The pattern that matches once. -/
def empty : Pattern := .basic []

instance : Inhabited Pattern := ⟨empty⟩

/-- Whether a pattern is the empty one. -/
def isEmpty : Pattern → Bool
  | .basic [] => true
  | _ => false

/-- Patterns without the empty ones, adjacent basic patterns put together. -/
def mergeBasics : List Pattern → List Pattern
  | [] => []
  | .basic triples :: parts =>
    match triples, mergeBasics parts with
    | [], merged => merged
    | _ :: _, .basic more :: merged => .basic (triples ++ more) :: merged
    | _ :: _, merged => .basic triples :: merged
  | part :: parts => part :: mergeBasics parts

/-- The conjunction of patterns, left to right. -/
def joinAll (parts : List Pattern) : Pattern :=
  match mergeBasics parts with
  | [] => empty
  | first :: rest => rest.foldl join first

end Pattern

end LinkedQuery
