import LinkedQuery.Json.Text

/-!
# Warnings

A `Warning` is a `Notice` about an element of a document, at a path that leads to the element.
Warnings are made relative to the element at hand; `Warning.nest` puts the step in front that
leads from the parent to the element.
-/

namespace LinkedQuery

/-- A map container, whose values are looked up by a key of one kind. -/
inductive MapKind where
  | language
  | index
  | id
  | type
deriving DecidableEq, Repr

/-- The kind as warnings name it. -/
def MapKind.text : MapKind → String
  | .language => "Language"
  | .index => "Index"
  | .id => "Id"
  | .type => "Type"

/-- What a warning is about. -/
inductive Notice where
  | unmappedKey
  | nullValue
  | setObject
  | duplicateId
  | unusableId
  | idNotString
  | unusableType
  | invalidPredicate
  | unsupportedEntry (key : String)
  | unsupportedMap (kind : MapKind)
  | notNodeObjects
  | besideGraph
  | unusableIri
  | unusableDatatype
  | qualifiedPlaceholder
  | invalidLanguage
  | notScalar
  /-- A notice of a replaced production. -/
  | other (text : String)
deriving DecidableEq, Repr

/-- The text of a notice. -/
def Notice.text : Notice → String
  | .unmappedKey => "Key not defined by context and ignored"
  | .nullValue => "null values are not yet supported"
  | .setObject => "Set objects are not yet supported"
  | .duplicateId => "Duplicate @id entry ignored"
  | .unusableId => "@id could not be expanded to an IRI and was ignored"
  | .idNotString => "@id values must be strings"
  | .unusableType => "Unsupported @type value and ignored"
  | .invalidPredicate => "Key does not expand to a valid IRI and was ignored"
  | .unsupportedEntry key => key ++ " entries are not yet supported"
  | .unsupportedMap kind => kind.text ++ " maps are not yet supported"
  | .notNodeObjects => "Graph containers must hold node objects"
  | .besideGraph => "Key ignored alongside a top-level @graph"
  | .unusableIri => "Value could not be expanded to an IRI and was matched as a string"
  | .unusableDatatype => "Value object @type does not expand to an IRI and was ignored"
  | .qualifiedPlaceholder =>
    "Value object @type and @language are not applied to placeholders"
  | .invalidLanguage => "Invalid @language tag ignored"
  | .notScalar => "Value objects must have a scalar @value"
  | .other text => text

/-- A step of a path: to the entry of an object or to the item of an array. -/
inductive Step where
  | key (name : String)
  | index (position : Nat)
deriving DecidableEq, Repr

/-- A step as paths write it. -/
def Step.text : Step → String
  | .key name => name
  | .index position => position.repr

/-- A step as a JSON value. -/
def Step.json : Step → Json
  | .key name => .string name
  | .index position => .number (.integer position)

/-- A notice about the element at a path. -/
structure Warning where
  notice : Notice
  path : List Step := []
deriving DecidableEq, Repr

namespace Warning

/-- A notice about the entry of an object. -/
def atKey (notice : Notice) (key : String) : Warning :=
  ⟨notice, [.key key]⟩

/-- The same warning seen from the parent. -/
def nest (step : Step) (warning : Warning) : Warning :=
  { warning with path := step :: warning.path }

/-- The path as text. -/
def pathText (warning : Warning) : String :=
  "/" ++ String.intercalate "/" (warning.path.map Step.text)

/-- The warning as one line of text. -/
def text (warning : Warning) : String :=
  warning.notice.text ++ " (at " ++ warning.pathText ++ ")"

/-- The warning as a JSON value. -/
def json (warning : Warning) : Json :=
  .object [("message", .string warning.notice.text), ("path", .array (warning.path.map Step.json))]

end Warning

/-- All warnings of an element seen from its parent. -/
def nestAll (step : Step) (warnings : List Warning) : List Warning :=
  warnings.map (·.nest step)

end LinkedQuery
