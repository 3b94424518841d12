import LinkedQuery.Rdf.LanguageTag

/-!
# Terms

The terms of a query: variables, IRIs and literals.  A `Name` is what may stand for a predicate or
a graph, a variable or an IRI, and every name is a `Term`.  A literal with the datatype of plain
strings is the plain literal, so `Literal.ofDatatype` makes no such typed literal.  The text of a
term is the one of the query language.
-/

namespace LinkedQuery

/-- A variable of a query. -/
structure Variable where
  name : String
deriving DecidableEq, Repr

/-- A literal: a text, with a language or a datatype if it has one. -/
inductive Literal where
  | plain (text : String)
  | tagged (text : String) (language : String)
  | typed (text : String) (datatype : String)
deriving DecidableEq, Repr

/-- A variable or an IRI. -/
inductive Name where
  | var (v : Variable)
  | iri (value : String)
deriving DecidableEq, Repr

/-- A variable, an IRI or a literal. -/
inductive Term where
  | var (v : Variable)
  | iri (value : String)
  | literal (value : Literal)
deriving DecidableEq, Repr

/-- A name as a term. -/
def Name.term : Name → Term
  | .var v => .var v
  | .iri i => .iri i

namespace Vocabulary

/-- The namespace of the data model. -/
def rdf (name : String) : String :=
  "http://www.w3.org/1999/02/22-rdf-syntax-ns#" ++ name

/-- The namespace of the datatypes. -/
def xsd (name : String) : String :=
  "http://www.w3.org/2001/XMLSchema#" ++ name

/-- The class of a resource. -/
def rdfType : String := rdf "type"

/-- The first member of a list. -/
def rdfFirst : String := rdf "first"

/-- A list without its first member. -/
def rdfRest : String := rdf "rest"

/-- The empty list. -/
def rdfNil : String := rdf "nil"

/-- The datatype of JSON texts. -/
def rdfJson : String := rdf "JSON"

/-- The datatype of plain strings. -/
def xsdString : String := xsd "string"

/-- The datatype of whole numbers. -/
def xsdInteger : String := xsd "integer"

/-- The datatype of doubles. -/
def xsdDouble : String := xsd "double"

/-- The datatype of truth values. -/
def xsdBoolean : String := xsd "boolean"

end Vocabulary

/-- A literal with a datatype; that of plain strings makes a plain literal. -/
def Literal.ofDatatype (text datatype : String) : Literal :=
  if datatype = Vocabulary.xsdString then .plain text else .typed text datatype

/-! ### Text -/

/-- The variable behind its mark. -/
def Variable.text (v : Variable) : String :=
  "?" ++ v.name

/-- The IRI between angle brackets. -/
def iriText (iri : String) : String :=
  "<" ++ iri ++ ">"

/-- The text of a name. -/
def Name.text : Name → String
  | .var v => v.text
  | .iri i => iriText i

namespace Literal

/-- A hexadecimal digit, in upper case. -/
def upperHexDigit (n : Nat) : Char :=
  (Nat.digitChar (n % 16)).toUpper

/-- A character as it stands in a literal: quotes, backslashes and control characters are
escaped. -/
def escape (c : Char) : List Char :=
  if c = '\x08' then ['\\', 'b']
  else if c = '\t' then ['\\', 't']
  else if c = '\n' then ['\\', 'n']
  else if c = '\x0c' then ['\\', 'f']
  else if c = '\r' then ['\\', 'r']
  else if c = '"' then ['\\', '"']
  else if c = '\\' then ['\\', '\\']
  else if c.toNat < 32 ∨ c.toNat = 127 then
    ['\\', 'u', '0', '0', upperHexDigit (c.toNat / 16), upperHexDigit c.toNat]
  else [c]

/-- A text between quotes. -/
def quote (text : String) : String :=
  String.ofList ('"' :: (text.toList.flatMap escape ++ ['"']))

/-- The text of a literal. -/
def text : Literal → String
  | .plain text => quote text
  | .tagged text language => quote text ++ "@" ++ language
  | .typed text datatype => quote text ++ "^^" ++ iriText datatype

end Literal

/-- The text of a term. -/
def Term.text : Term → String
  | .var v => v.text
  | .iri i => iriText i
  | .literal l => l.text

end LinkedQuery
