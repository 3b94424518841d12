import LinkedQuery.Iri.Basic

/-!
# The components of IRIs

`Iri.Components.ofList` splits an IRI or a relative reference into scheme, authority, path, query
and fragment, and `Components.toList` writes them again.  `Iri.isValid` checks the characters of
each component: letters, digits and some marks of ASCII, the characters beyond ASCII that are
meant for text, and percent signs followed by two hexadecimal digits.
-/

namespace LinkedQuery.Iri

/-! ### Characters -/

/-- A hexadecimal digit. -/
def isHexDigit (c : Char) : Bool :=
  isDigit c || ('a' ≤ c && c ≤ 'f') || ('A' ≤ c && c ≤ 'F')

/-- The ranges beyond ASCII whose characters are allowed everywhere. -/
def textRanges : List (Nat × Nat) :=
  [(0xA0, 0xD7FF), (0xF900, 0xFDCF), (0xFDF0, 0xFFEF), (0x10000, 0x1FFFD), (0x20000, 0x2FFFD),
    (0x30000, 0x3FFFD), (0x40000, 0x4FFFD), (0x50000, 0x5FFFD), (0x60000, 0x6FFFD),
    (0x70000, 0x7FFFD), (0x80000, 0x8FFFD), (0x90000, 0x9FFFD), (0xA0000, 0xAFFFD),
    (0xB0000, 0xBFFFD), (0xC0000, 0xCFFFD), (0xD0000, 0xDFFFD), (0xE1000, 0xEFFFD)]

/-- The ranges of private characters, which a query may hold. -/
def privateRanges : List (Nat × Nat) :=
  [(0xE000, 0xF8FF), (0xF0000, 0xFFFFD), (0x100000, 0x10FFFD)]

/-- Whether a character lies in one of some ranges. -/
def inRanges (ranges : List (Nat × Nat)) (c : Char) : Bool :=
  ranges.any fun range => range.1 ≤ c.toNat && c.toNat ≤ range.2

/-- A character that is allowed in every component but the scheme and the port. -/
def isPlain (c : Char) : Bool :=
  isLetter c || isDigit c || "!$&'()*+,-.;=_~".toList.contains c || inRanges textRanges c

/-- Whether all characters are allowed, or are percent signs with two digits. -/
def allAllowed (allowed : Char → Bool) : List Char → Bool
  | [] => true
  | '%' :: a :: b :: rest => isHexDigit a && isHexDigit b && allAllowed allowed rest
  | c :: rest => c != '%' && allowed c && allAllowed allowed rest

/-- A character of the part of an authority before the host. -/
def isUserChar (c : Char) : Bool :=
  isPlain c || c = ':'

/-- A character of a path. -/
def isPathChar (c : Char) : Bool :=
  isPlain c || c = ':' || c = '@' || c = '/'

/-- A character of a fragment. -/
def isFragmentChar (c : Char) : Bool :=
  isPathChar c || c = '?'

/-- A character of a query. -/
def isQueryChar (c : Char) : Bool :=
  isFragmentChar c || inRanges privateRanges c

/-! ### Hosts in brackets -/

/-- A number below 256 without leading zeros. -/
def isOctet (cs : List Char) : Bool :=
  !cs.isEmpty && cs.length ≤ 3 && cs.all isDigit && (cs.length = 1 || cs.head? != some '0')
    && cs.foldl (fun value c => value * 10 + (c.toNat - '0'.toNat)) 0 < 256

/-- Four numbers below 256 between points. -/
def isDottedAddress (cs : List Char) : Bool :=
  let octets := cs.splitOn '.'
  octets.length = 4 && octets.all isOctet

/-- A group of at most four hexadecimal digits. -/
def isGroup (cs : List Char) : Bool :=
  !cs.isEmpty && cs.length ≤ 4 && cs.all isHexDigit

/-- The number of groups in the parts between colons; only the last part may be a dotted
address, and it counts as two. -/
def groupCount? (dotted : Bool) : List (List Char) → Option Nat
  | [] => some 0
  | [part] =>
    if isGroup part then some 1
    else if dotted && isDottedAddress part then some 2
    else none
  | part :: parts => if isGroup part then (groupCount? dotted parts).map (· + 1) else none

/-- The characters before and behind the first two colons in a row. -/
def splitAtGap : List Char → Option (List Char × List Char)
  | ':' :: ':' :: rest => some ([], rest)
  | c :: rest => (splitAtGap rest).map fun parts => (c :: parts.1, parts.2)
  | [] => none

/-- The groups of a possibly empty side of a gap. -/
def sideCount? (dotted : Bool) (side : List Char) : Option Nat :=
  if side.isEmpty then some 0 else groupCount? dotted (side.splitOn ':')

/-- An address of eight groups, or of at most seven around a gap. -/
def isGroupAddress (cs : List Char) : Bool :=
  match splitAtGap cs with
  | none => groupCount? true (cs.splitOn ':') == some 8
  | some (before, behind) =>
    match sideCount? false before, sideCount? true behind with
    | some m, some n => m + n ≤ 7
    | _, _ => false

/-- An address of a version to come: `v`, hexadecimal digits, a point, and further characters. -/
def isFutureAddress : List Char → Bool
  | c :: rest =>
    (c = 'v' || c = 'V') && !(rest.takeWhile isHexDigit).isEmpty &&
      match rest.dropWhile isHexDigit with
      | '.' :: address => !address.isEmpty && address.all isUserChar
      | _ => false
  | [] => false

/-! ### Components -/

/-- The parts of an IRI or of a relative reference. -/
structure Components where
  scheme : Option (List Char)
  authority : Option (List Char)
  path : List Char
  query : Option (List Char)
  fragment : Option (List Char)
deriving DecidableEq, Repr

/-- A character that ends an authority. -/
def endsAuthority (c : Char) : Bool :=
  c = '/' || c = '?' || c = '#'

/-- A character that ends a path. -/
def endsPath (c : Char) : Bool :=
  c = '?' || c = '#'

/-- The scheme, if the text begins with one, and the characters behind it. -/
def splitScheme (cs : List Char) : Option (List Char) × List Char :=
  match splitAtColon cs with
  | some (scheme, rest) => if isScheme scheme then (some scheme, rest) else (none, cs)
  | none => (none, cs)

/-- The authority, if the text begins with two slashes, and the characters behind it. -/
def splitAuthority : List Char → Option (List Char) × List Char
  | '/' :: '/' :: rest =>
    (some (rest.takeWhile fun c => !endsAuthority c), rest.dropWhile fun c => !endsAuthority c)
  | cs => (none, cs)

namespace Components

/-- The components of a text. -/
def ofList (cs : List Char) : Components :=
  let (scheme, hierarchy) := splitScheme cs
  let (authority, pathOn) := splitAuthority hierarchy
  let path := pathOn.takeWhile fun c => !endsPath c
  let (query, fragmentOn) : Option (List Char) × List Char :=
    match pathOn.dropWhile fun c => !endsPath c with
    | '?' :: rest => (some (rest.takeWhile (· != '#')), rest.dropWhile (· != '#'))
    | rest => (none, rest)
  ⟨scheme, authority, path, query, fragmentOn.tail?⟩

/-- The text of the components. -/
def toList (parts : Components) : List Char :=
  (parts.scheme.elim [] (· ++ [':']))
    ++ (parts.authority.elim [] (['/', '/'] ++ ·))
    ++ parts.path
    ++ (parts.query.elim [] ('?' :: ·))
    ++ (parts.fragment.elim [] ('#' :: ·))

end Components

/-- A port is empty or a colon and digits. -/
def isPort : List Char → Bool
  | [] => true
  | c :: digits => c = ':' && digits.all isDigit

/-- A host with an optional port. -/
def isHost (cs : List Char) : Bool :=
  match cs with
  | '[' :: inner =>
    let address := inner.takeWhile (· != ']')
    match inner.dropWhile (· != ']') with
    | _ :: port => (isFutureAddress address || isGroupAddress address) && isPort port
    | [] => false
  | _ => allAllowed isPlain (cs.takeWhile (· != ':')) && isPort (cs.dropWhile (· != ':'))

/-- A host, with what comes before an `@` unless a bracket comes first. -/
def isAuthority (cs : List Char) : Bool :=
  let user := cs.takeWhile fun c => c != '@' && c != '['
  match cs.dropWhile fun c => c != '@' && c != '[' with
  | '@' :: host => allAllowed isUserChar user && isHost host
  | _ => isHost cs

/-- Whether every component but the scheme holds only characters allowed there. -/
def Components.areAllowed (parts : Components) : Bool :=
  parts.authority.all isAuthority
    && allAllowed isPathChar parts.path
    && parts.query.all (allAllowed isQueryChar)
    && parts.fragment.all (allAllowed isFragmentChar)

/-- Whether the text is an IRI: it has a scheme, and its characters are allowed where they stand. -/
def isValid (iri : String) : Bool :=
  let parts := Components.ofList iri.toList
  parts.scheme.isSome && parts.areAllowed

end LinkedQuery.Iri
