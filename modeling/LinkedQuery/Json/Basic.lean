import LinkedQuery.Entries
import LinkedQuery.Number.Text

/-!
# JSON values

`Json` is a JSON value whose objects keep the order of their entries.  A `Number` is an integer
or a `Double`, so `1` and `1.0` differ.  `Json.entry?` looks up an entry of an object, and
`Json.kind` names the shape of a value.
-/

namespace LinkedQuery

/-- A JSON number: whole numbers of 64 bits are kept exactly. -/
inductive Number where
  | integer (value : Int)
  | double (value : Double)
deriving DecidableEq, Repr

/-- A JSON value; objects keep the order of their entries. -/
inductive Json where
  | null
  | boolean (value : Bool)
  | number (value : Number)
  | string (text : String)
  | array (items : List Json)
  | object (entries : List (String × Json))
deriving Repr, Inhabited

namespace Json

/-- The shapes of a JSON value. -/
inductive Kind where
  | null
  | boolean
  | number
  | string
  | array
  | object
deriving DecidableEq, Repr

/-- The kind as messages name it. -/
def Kind.noun : Kind → String
  | .null => "null"
  | .boolean => "a boolean"
  | .number => "a number"
  | .string => "a string"
  | .array => "an array"
  | .object => "an object"

/-- The shape of a value. -/
def kind : Json → Kind
  | .null => .null
  | .boolean _ => .boolean
  | .number _ => .number
  | .string _ => .string
  | .array _ => .array
  | .object _ => .object

/-- The entry of an object under a key; other values have no entries. -/
def entry? : Json → String → Option Json
  | .object entries, key => entries.lookup key
  | _, _ => none

/-- The text of a string. -/
def string? : Json → Option String
  | .string text => some text
  | _ => none

/-- Whether the value is an object. -/
def isObject : Json → Bool
  | .object _ => true
  | _ => false

end Json

end LinkedQuery
