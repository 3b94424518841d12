/-!
# JSON faults

A `Json.Fault` is a reason for which a text is not JSON, and a `Json.Misread` is a fault at a line
and column.  Lines count from one; the column is the number of bytes of the line up to and
including the one at fault.
-/

namespace LinkedQuery.Json

/-- Why a text is not JSON. -/
inductive Fault where
  | unfinishedList
  | unfinishedObject
  | unfinishedString
  | unfinishedValue
  | expectedColon
  | expectedListCommaOrEnd
  | expectedObjectCommaOrEnd
  | expectedWord
  | expectedValue
  | invalidEscape
  | invalidNumber
  | numberOutOfRange
  | controlCharacter
  | keyNotString
  | loneSurrogate
  | trailingComma
  | trailingCharacters
  | unfinishedSurrogatePair
  | tooDeep
deriving DecidableEq, Repr

/-- The text of a fault. -/
def Fault.message : Fault → String
  | .unfinishedList => "EOF while parsing a list"
  | .unfinishedObject => "EOF while parsing an object"
  | .unfinishedString => "EOF while parsing a string"
  | .unfinishedValue => "EOF while parsing a value"
  | .expectedColon => "expected `:`"
  | .expectedListCommaOrEnd => "expected `,` or `]`"
  | .expectedObjectCommaOrEnd => "expected `,` or `\x7d`"
  | .expectedWord => "expected ident"
  | .expectedValue => "expected value"
  | .invalidEscape => "invalid escape"
  | .invalidNumber => "invalid number"
  | .numberOutOfRange => "number out of range"
  | .controlCharacter => "control character (\\u0000-\\u001F) found while parsing a string"
  | .keyNotString => "key must be a string"
  | .loneSurrogate => "lone leading surrogate in hex escape"
  | .trailingComma => "trailing comma"
  | .trailingCharacters => "trailing characters"
  | .unfinishedSurrogatePair => "unexpected end of hex escape"
  | .tooDeep => "recursion limit exceeded"

/-- A fault and the place where it was noticed. -/
structure Misread where
  fault : Fault
  line : Nat
  column : Nat
deriving DecidableEq, Repr

/-- The text of a fault with its place. -/
def Misread.message (misread : Misread) : String :=
  misread.fault.message ++ " at line " ++ misread.line.repr ++ " column " ++ misread.column.repr

/-- The line and the column reached after some bytes of a text, from a line and a column. -/
def placeAfter : List Char → (bytes line column : Nat) → Nat × Nat
  | [], _, line, column => (line, column)
  | c :: rest, bytes, line, column =>
    if bytes = 0 then (line, column)
    else if c = '\n' then placeAfter rest (bytes - 1) (line + 1) 0
    else placeAfter rest (bytes - c.utf8Size) line (column + min bytes c.utf8Size)

/-- The number of bytes of some characters. -/
def byteCount (cs : List Char) : Nat :=
  cs.foldl (fun count c => count + c.utf8Size) 0

end LinkedQuery.Json
