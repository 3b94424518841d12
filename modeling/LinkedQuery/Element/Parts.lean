import LinkedQuery.Element.Basic

/-!
# Elements and their parts

An `Element` is a JSON value together with the ways to read it and with its parts, which are
elements too.  A production never reads a part itself: it asks the part for one of its readings,
so whatever has been put in the place of a production is in force everywhere.
-/

namespace LinkedQuery

/-- A value with its parts, the items of an array or the entries of an object. -/
structure Parts (α : Type) where
  value : Json
  items : List α := []
  entries : List (String × α) := []

/-- A value that can be read by every production. -/
structure Element where
  parts : Parts Element
  read : Production → Reading

/-- The value of an element. -/
def Element.value (element : Element) : Json :=
  element.parts.value

namespace Parts

/-- The fault of a production that does not read the value. -/
def unexpected {α : Type} (parts : Parts α) (production : Production) : QueryFault :=
  .unexpected production parts.value.kind

/-- The local context of an object. -/
def localContext? {α : Type} (parts : Parts α) : Option Json :=
  parts.value.entry? Keyword.context.text

/-- The template of an object of which one entry has a template and the others stay as they are. -/
def templateWith (parts : Parts Element) (key : String) (template : Template) : Template :=
  .object (parts.entries.map fun entry =>
    (entry.1, if entry.1 = key then template else .value entry.2.value))

end Parts

end LinkedQuery
