import LinkedQuery.Json.Basic

/-!
# JSON text

`Json.text` writes a value without spaces and `Json.prettyText` writes it over several lines,
each level indented by two blanks.  Strings escape the quote, the backslash and the control
characters only.  Doubles always show a decimal or an exponent, so that they are told apart from
integers.
-/

namespace LinkedQuery

/-- Doubles show the shortest digits, without an exponent where the first digit stands between
the fifth decimal and the sixteenth place before the point. -/
def Number.style : DecimalStyle where
  tie := .even
  wholeDecimal := true
  plain power := -5 ≤ power && power ≤ 15

/-- The JSON text of a number. -/
def Number.chars : Number → List Char
  | .integer value => integerDigits value
  | .double value => value.text Number.style

/-- The JSON text of a number. -/
def Number.text (number : Number) : String :=
  String.ofList number.chars

namespace Json

/-- A hexadecimal digit, in lower case. -/
def hexDigit (n : Nat) : Char :=
  Nat.digitChar (n % 16)

/-- A character as it stands inside quotes. -/
def escape (c : Char) : List Char :=
  if c = '"' then ['\\', '"']
  else if c = '\\' then ['\\', '\\']
  else if c = '\x08' then ['\\', 'b']
  else if c = '\x0c' then ['\\', 'f']
  else if c = '\n' then ['\\', 'n']
  else if c = '\r' then ['\\', 'r']
  else if c = '\t' then ['\\', 't']
  else if c.toNat < 32 then ['\\', 'u', '0', '0', hexDigit (c.toNat / 16), hexDigit c.toNat]
  else [c]

/-- A string between quotes. -/
def quote (text : String) : List Char :=
  '"' :: (text.toList.flatMap escape ++ ['"'])

mutual

/-- The characters of a value, written without spaces. -/
def chars : Json → List Char
  | .null => ['n', 'u', 'l', 'l']
  | .boolean true => ['t', 'r', 'u', 'e']
  | .boolean false => ['f', 'a', 'l', 's', 'e']
  | .number value => value.chars
  | .string text => quote text
  | .array items => '[' :: (itemsChars items ++ [']'])
  | .object entries => '\x7b' :: (entriesChars entries ++ ['\x7d'])

/-- Items with commas between them. -/
def itemsChars : List Json → List Char
  | [] => []
  | [item] => chars item
  | item :: next :: items => chars item ++ ',' :: itemsChars (next :: items)

/-- Entries with commas between them. -/
def entriesChars : List (String × Json) → List Char
  | [] => []
  | [(key, value)] => quote key ++ ':' :: chars value
  | (key, value) :: next :: entries =>
    quote key ++ ':' :: (chars value ++ ',' :: entriesChars (next :: entries))

end

/-- The value as text without spaces. -/
def text (value : Json) : String :=
  String.ofList value.chars

/-- The end of a line and the indentation of the next. -/
def lineBreak (level : Nat) : List Char :=
  '\n' :: List.replicate (2 * level) ' '

mutual

/-- The characters of a value at a level of indentation, one line an item or entry. -/
def prettyChars (level : Nat) : Json → List Char
  | .array (item :: items) =>
    '[' :: (prettyItems (level + 1) (item :: items) ++ lineBreak level ++ [']'])
  | .object (entry :: entries) =>
    '\x7b' :: (prettyEntries (level + 1) (entry :: entries) ++ lineBreak level ++ ['\x7d'])
  | .null => chars .null
  | .boolean value => chars (.boolean value)
  | .number value => chars (.number value)
  | .string text => chars (.string text)
  | .array [] => ['[', ']']
  | .object [] => ['\x7b', '\x7d']

/-- Items, each on lines of its own. -/
def prettyItems (level : Nat) : List Json → List Char
  | [] => []
  | [item] => lineBreak level ++ prettyChars level item
  | item :: next :: items =>
    lineBreak level ++ prettyChars level item ++ ',' :: prettyItems level (next :: items)

/-- Entries, each on lines of its own. -/
def prettyEntries (level : Nat) : List (String × Json) → List Char
  | [] => []
  | [(key, value)] => lineBreak level ++ quote key ++ ':' :: ' ' :: prettyChars level value
  | (key, value) :: next :: entries =>
    lineBreak level ++ quote key ++ ':' :: ' ' :: (prettyChars level value
      ++ ',' :: prettyEntries level (next :: entries))

end

/-- The value as indented text. -/
def prettyText (value : Json) : String :=
  String.ofList (value.prettyChars 0)

end Json

end LinkedQuery
