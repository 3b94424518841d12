/-!
# YAML faults

A `Yaml.Mark` is a place in a text, and a `Yaml.Fault` a reason for which the text is not YAML: a
character that may not stand anywhere, or a `Problem` at a place, with the `Activity` during which
it came up.  `Fault.message` is the text of a fault.
-/

namespace LinkedQuery.Yaml

/-- A place in a text; lines and columns count from zero. -/
structure Mark where
  line : Nat
  column : Nat
  /-- The number of bytes of the line before the place. -/
  bytes : Nat
deriving DecidableEq, Repr

namespace Mark

/-- The start of a text. -/
def zero : Mark := ⟨0, 0, 0⟩

/-- The start of the next line. -/
def nextLine (mark : Mark) : Mark :=
  ⟨mark.line + 1, 0, 0⟩

/-- The place behind a character of so many bytes in the same line. -/
def pass (mark : Mark) (bytes : Nat) : Mark :=
  ⟨mark.line, mark.column + 1, mark.bytes + bytes⟩

/-- The place behind so many characters of one byte each. -/
def right (mark : Mark) (columns : Nat) : Mark :=
  ⟨mark.line, mark.column + columns, mark.bytes + columns⟩

/-- The place as messages name it, unless it is the start of the text. -/
def suffix (mark : Mark) : String :=
  if mark = zero then ""
  else " at line " ++ (mark.line + 1).repr ++ " column " ++ (mark.column + 1).repr

end Mark

/-- What is wrong at a place. -/
inductive Problem where
  | noNodeContent
  | noSequenceEnd
  | noMappingEnd
  | noItem
  | noKey
  | noColon
  | keyNotAllowed
  | valueNotAllowed
  | itemNotAllowed
  | unexpectedColon
  | unexpectedTab
  | unexpectedEnd
  | unexpectedIndicator
  | unknownEscape
  | noHexDigits
  | invalidCharacterCode
  | cannotStart
deriving DecidableEq, Repr

/-- The text of a problem. -/
def Problem.message : Problem → String
  | .noNodeContent => "did not find expected node content"
  | .noSequenceEnd => "did not find expected ',' or ']'"
  | .noMappingEnd => "did not find expected ',' or '\x7d'"
  | .noItem => "did not find expected '-' indicator"
  | .noKey => "did not find expected key"
  | .noColon => "could not find expected ':'"
  | .keyNotAllowed => "mapping keys are not allowed in this context"
  | .valueNotAllowed => "mapping values are not allowed in this context"
  | .itemNotAllowed => "block sequence entries are not allowed in this context"
  | .unexpectedColon => "found unexpected ':'"
  | .unexpectedTab => "found a tab character that violates indentation"
  | .unexpectedEnd => "found unexpected end of stream"
  | .unexpectedIndicator => "found unexpected document indicator"
  | .unknownEscape => "found unknown escape character"
  | .noHexDigits => "did not find expected hexdecimal number"
  | .invalidCharacterCode => "found invalid Unicode character escape code"
  | .cannotStart => "found character that cannot start any token"

/-- What was being read when a problem came up. -/
inductive Activity where
  | blockNode
  | flowNode
  | blockSequence
  | blockMapping
  | flowSequence
  | flowMapping
  | key
  | nextToken
  | plainScalar
  | quotedScalar
  | quotedEscape
deriving DecidableEq, Repr

/-- The text of an activity. -/
def Activity.message : Activity → String
  | .blockNode => "while parsing a block node"
  | .flowNode => "while parsing a flow node"
  | .blockSequence => "while parsing a block collection"
  | .blockMapping => "while parsing a block mapping"
  | .flowSequence => "while parsing a flow sequence"
  | .flowMapping => "while parsing a flow mapping"
  | .key => "while scanning a simple key"
  | .nextToken => "while scanning for the next token"
  | .plainScalar => "while scanning a plain scalar"
  | .quotedScalar => "while scanning a quoted scalar"
  | .quotedEscape => "while parsing a quoted scalar"

/-- A reason for which a text is not YAML. -/
inductive Fault where
  /-- A character that may not stand anywhere, and the number of bytes before it. -/
  | controlCharacter (position : Nat)
  /-- A problem at a place, with what was being read, and where that begins. -/
  | misread (problem : Problem) (mark : Mark) (activity : Option (Activity × Mark))
deriving DecidableEq, Repr

/-- The text of a fault.  The place of an activity is named only if it is another one. -/
def Fault.message : Fault → String
  | .controlCharacter position =>
    "control characters are not allowed"
      ++ (if position = 0 then "" else " at position " ++ position.repr)
  | .misread problem mark none => problem.message ++ mark.suffix
  | .misread problem mark (some (activity, start)) =>
    problem.message ++ mark.suffix ++ ", " ++ activity.message
      ++ (if start = mark then "" else start.suffix)

end LinkedQuery.Yaml
