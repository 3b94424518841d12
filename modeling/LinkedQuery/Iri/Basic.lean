/-!
# The shapes of IRIs

`Iri.hasScheme` tells whether a text begins with a scheme, `Iri.compact?` splits a compact IRI at
its first colon, and `Iri.shortName` is the last segment of an IRI, by which people call it.
None of them checks the characters of the text; that is `Iri.isValid`.
-/

namespace LinkedQuery.Iri

/-- A letter of the ASCII range. -/
def isLetter (c : Char) : Bool :=
  ('a' ≤ c && c ≤ 'z') || ('A' ≤ c && c ≤ 'Z')

/-- A digit of the ASCII range. -/
def isDigit (c : Char) : Bool :=
  '0' ≤ c && c ≤ '9'

/-- A character of a scheme behind its first letter. -/
def isSchemeChar (c : Char) : Bool :=
  isLetter c || isDigit c || c = '+' || c = '-' || c = '.'

/-- A scheme is a letter followed by letters, digits and some marks. -/
def isScheme : List Char → Bool
  | [] => false
  | c :: rest => isLetter c && rest.all isSchemeChar

/-- The characters before and behind the first colon. -/
def splitAtColon : List Char → Option (List Char × List Char)
  | [] => none
  | c :: rest =>
    if c = ':' then some ([], rest)
    else (splitAtColon rest).map fun parts => (c :: parts.1, parts.2)

/-- Whether a text begins with a scheme and a colon. -/
def hasScheme (iri : String) : Bool :=
  match splitAtColon iri.toList with
  | some (scheme, _) => isScheme scheme
  | none => false

/-- The two parts of a compact IRI.  An IRI with an authority is not compact, and neither is a path
with a colon in it. -/
def compact? (iri : String) : Option (String × String) :=
  match splitAtColon iri.toList with
  | some (lead, suffix) =>
    if lead.isEmpty || lead.contains '/' || ['/', '/'].isPrefixOf suffix then none
    else some (String.ofList lead, String.ofList suffix)
  | none => none

/-- Characters that end a segment of an IRI. -/
def isDelimiter (c : Char) : Bool :=
  c = '#' || c = '/' || c = ':'

/-- The part behind the last delimiter, or the whole IRI if nothing is there. -/
def shortName (iri : String) : String :=
  let segment := (iri.toList.reverse.takeWhile fun c => !isDelimiter c).reverse
  if segment.isEmpty then iri else String.ofList segment

end LinkedQuery.Iri
