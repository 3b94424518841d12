/-!
# Keywords

The words with a meaning of their own in a document: each is written with `@` in front.
`Keyword.ofText?` recognizes a keyword by its text.
-/

namespace LinkedQuery

/-- A word with a meaning of its own. -/
inductive Keyword where
  | base
  | container
  | context
  | direction
  | graph
  | id
  | importing
  | included
  | index
  | json
  | language
  | list
  | nest
  | nothing
  | prefixing
  | propagating
  | protecting
  | reverse
  | set
  | type
  | value
  | version
  | vocab
deriving DecidableEq, Repr

namespace Keyword

/-- The keyword as documents write it. -/
def text : Keyword → String
  | .base => "@base"
  | .container => "@container"
  | .context => "@context"
  | .direction => "@direction"
  | .graph => "@graph"
  | .id => "@id"
  | .importing => "@import"
  | .included => "@included"
  | .index => "@index"
  | .json => "@json"
  | .language => "@language"
  | .list => "@list"
  | .nest => "@nest"
  | .nothing => "@none"
  | .prefixing => "@prefix"
  | .propagating => "@propagate"
  | .protecting => "@protected"
  | .reverse => "@reverse"
  | .set => "@set"
  | .type => "@type"
  | .value => "@value"
  | .version => "@version"
  | .vocab => "@vocab"

/-- All keywords. -/
def all : List Keyword :=
  [.base, .container, .context, .direction, .graph, .id, .importing, .included, .index, .json,
    .language, .list, .nest, .nothing, .prefixing, .propagating, .protecting, .reverse, .set,
    .type, .value, .version, .vocab]

/-- The keyword with a text. -/
def ofText? (word : String) : Option Keyword :=
  all.find? fun keyword => keyword.text == word

/-- Whether a text is a keyword. -/
def isKeyword (word : String) : Bool :=
  (ofText? word).isSome

theorem mem_all (keyword : Keyword) :
  keyword ∈ all
  := by
  cases keyword <;> decide

theorem text_eq_of_ofText? {word : String} {keyword : Keyword} (h : ofText? word = some keyword) :
  keyword.text = word
  := by
  simpa using List.find?_some h

end Keyword

end LinkedQuery
