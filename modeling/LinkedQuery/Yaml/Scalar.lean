import LinkedQuery.Yaml.Cursor

/-!
# YAML scalars

A scalar may go on over several lines.  A `Gap` is a stretch of blanks in it: within a line it
stands for itself, a line break in it stands for a blank, and each further one for a line break.
`plainScalar`, `singleQuoted` and `doubleQuoted` read a scalar character by character, with the
gap before the next one in hand.
-/

namespace LinkedQuery.Yaml

/-- Blanks between the characters of a scalar. -/
inductive Gap where
  /-- Blanks within a line, the last one first. -/
  | blanks (cs : List Char)
  /-- A line break, and further ones, the last one first; nothing stands for the first one if it
  was escaped. -/
  | breaks (first : Option Char) (further : List Char)

namespace Gap

/-- No blanks. -/
def none : Gap := .blanks []

/-- Whether there are no blanks. -/
def isNone : Gap → Bool
  | .blanks [] => true
  | _ => false

/-- Whether the gap goes on to another line. -/
def crossesLine : Gap → Bool
  | .blanks _ => false
  | .breaks _ _ => true

/-- The gap with a further blank or line break; blanks at the ends of a line do not count. -/
def add (c : Char) : Gap → Gap
  | .blanks cs => if isBreak c then .breaks (some c) [] else .blanks (c :: cs)
  | .breaks first further => .breaks first (if isBreak c then c :: further else further)

/-- What the gap stands for. -/
def chars : Gap → List Char
  | .blanks cs => cs.reverse
  | .breaks (some '\n') [] => [' ']
  | .breaks (some '\n') further => further.reverse
  | .breaks first further => first.toList ++ further.reverse

end Gap

/-- The characters of a scalar with the cursor behind it, and whether a line ends before that. -/
abbrev ScalarReading := Except Fault (List Char × Cursor × Bool)

/-- The reading of a scalar with more characters in front. -/
def withFront (front : List Char) (reading : ScalarReading) : ScalarReading :=
  reading.map fun taken => (front ++ taken.1, taken.2)

/-- A character with a meaning of its own among flow collections. -/
def isFlowIndicator (c : Char) : Bool :=
  c = ',' || c = '[' || c = ']' || c = '\x7b' || c = '\x7d'

/-- Whether a plain scalar ends before some characters. -/
def endsPlain (flow : Bool) : List Char → Bool
  | [] => true
  | c :: rest => (c = ':' && startsBlank rest) || (flow && isFlowIndicator c)

/-- Whether a colon stands where it may not in a plain scalar. -/
def hasStrayColon (flow : Bool) : List Char → Bool
  | ':' :: d :: _ => flow && (isFlowIndicator d || d = '?')
  | _ => false

/-- The rest of a plain scalar.  Further lines must be indented at least as told, unless the
scalar stands in a flow collection. -/
def plainScalar (flow : Bool) (indent : Int) (start : Mark) :
    Gap → Mark → List Char → ScalarReading
  | gap, mark, [] => .ok ([], ⟨[], mark⟩, gap.crossesLine)
  | gap, mark, c :: rest =>
    let here : ScalarReading := .ok ([], ⟨c :: rest, mark⟩, gap.crossesLine)
    if isBlank c || isBreak c then
      if c = '\t' && gap.crossesLine && (mark.column : Int) < indent then
        .error (.misread .unexpectedTab mark (some (.plainScalar, start)))
      else plainScalar flow indent start (gap.add c) (mark.after c) rest
    else if !flow && gap.crossesLine && (mark.column : Int) < indent then here
    else if isDocumentLine mark (c :: rest) || (c = '#' && !gap.isNone) then here
    else if hasStrayColon flow (c :: rest) then
      .error (.misread .unexpectedColon mark (some (.plainScalar, start)))
    else if endsPlain flow (c :: rest) then here
    else
      withFront (gap.chars ++ [c]) (plainScalar flow indent start .none (mark.after c) rest)

/-- The rest of a scalar between single quotes, where a quote is written twice. -/
def singleQuoted (start : Mark) : Gap → Mark → List Char → ScalarReading
  | _, mark, [] => .error (.misread .unexpectedEnd mark (some (.quotedScalar, start)))
  | gap, mark, '\'' :: '\'' :: rest =>
    withFront (gap.chars ++ ['\'']) (singleQuoted start .none (mark.right 2) rest)
  | gap, mark, c :: rest =>
    if isDocumentLine mark (c :: rest) then
      .error (.misread .unexpectedIndicator mark (some (.quotedScalar, start)))
    else if isBlank c || isBreak c then singleQuoted start (gap.add c) (mark.after c) rest
    else if c = '\'' then .ok (gap.chars, ⟨rest, mark.right 1⟩, false)
    else withFront (gap.chars ++ [c]) (singleQuoted start .none (mark.after c) rest)

/-- The character that a letter stands for behind a backslash. -/
def letterEscape? (c : Char) : Option Char :=
  if c = '0' then some '\x00'
  else if c = 'a' then some '\x07'
  else if c = 'b' then some '\x08'
  else if c = 't' ∨ c = '\t' then some '\t'
  else if c = 'n' then some '\n'
  else if c = 'v' then some '\x0b'
  else if c = 'f' then some '\x0c'
  else if c = 'r' then some '\r'
  else if c = 'e' then some '\x1b'
  else if c = ' ' ∨ c = '"' ∨ c = '/' ∨ c = '\\' then some c
  else if c = 'N' then some '\u0085'
  else if c = '_' then some '\u00a0'
  else if c = 'L' then some '\u2028'
  else if c = 'P' then some '\u2029'
  else none

/-- The number of hexadecimal digits behind a letter of an escape. -/
def codeLength? (c : Char) : Option Nat :=
  if c = 'x' then some 2
  else if c = 'u' then some 4
  else if c = 'U' then some 8
  else none

/-- The value of a hexadecimal digit. -/
def hexDigit? (c : Char) : Option Nat :=
  if c.isDigit then some (c.toNat - '0'.toNat)
  else if 'a' ≤ c ∧ c ≤ 'f' then some (c.toNat - 'a'.toNat + 10)
  else if 'A' ≤ c ∧ c ≤ 'F' then some (c.toNat - 'A'.toNat + 10)
  else none

/-- The number that hexadecimal digits stand for. -/
def hexNumber? (digits : List Char) : Option Nat :=
  digits.foldlM (fun total c => (hexDigit? c).map (16 * total + ·)) 0

/-- The character that so many hexadecimal digits in front stand for. -/
def codeCharacter (length : Nat) (cs : List Char) : Except Problem Char :=
  let digits := cs.take length
  match hexNumber? digits with
  | some code =>
    if digits.length < length then .error .noHexDigits
    else if code.isValidChar then .ok (Char.ofNat code)
    else .error .invalidCharacterCode
  | none => .error .noHexDigits

/-- The rest of a scalar between double quotes.  The first `skip` characters belong to an escape
that has been read. -/
def doubleQuoted (start : Mark) : (skip : Nat) → Gap → Mark → List Char → ScalarReading
  | _, _, mark, [] => .error (.misread .unexpectedEnd mark (some (.quotedScalar, start)))
  | skip + 1, gap, mark, c :: rest => doubleQuoted start skip gap (mark.after c) rest
  | 0, gap, mark, c :: rest =>
    if isDocumentLine mark (c :: rest) then
      .error (.misread .unexpectedIndicator mark (some (.quotedScalar, start)))
    else if isBlank c || isBreak c then doubleQuoted start 0 (gap.add c) (mark.after c) rest
    else if c = '"' then .ok (gap.chars, ⟨rest, mark.right 1⟩, false)
    else if c = '\\' then
      let letter := rest.headD '\x00'
      match letterEscape? letter, codeLength? letter with
      | some char, _ =>
        withFront (gap.chars ++ [char]) (doubleQuoted start 1 .none (mark.right 1) rest)
      | none, some length =>
        match codeCharacter length rest.tail with
        | .ok char =>
          withFront (gap.chars ++ [char])
            (doubleQuoted start (length + 1) .none (mark.right 1) rest)
        | .error problem => .error (.misread problem (mark.right 2) (some (.quotedEscape, start)))
      | none, none =>
        if isBreak letter then
          withFront gap.chars (doubleQuoted start 1 (.breaks none []) (mark.right 1) rest)
        else .error (.misread .unknownEscape mark (some (.quotedEscape, start)))
    else withFront (gap.chars ++ [c]) (doubleQuoted start 0 .none (mark.after c) rest)

end LinkedQuery.Yaml
