import LinkedQuery.Url.Basic

/-!
# Reading addresses

`Url.ofText?` reads an address and brings it into its normal form.  The schemes of `isSpecial` name
a host however many slashes are written, and a backslash is a slash there; under any other scheme
a host comes behind two slashes, and a path that does not begin with a slash is kept as it is.
-/

namespace LinkedQuery.Url

/-! ### Paths -/

/-- A segment that stands for the place where it is. -/
def isDot (segment : List Char) : Bool :=
  [".", "%2e"].contains (String.ofList segment).toLower

/-- A segment that stands for the place above. -/
def isDoubleDot (segment : List Char) : Bool :=
  ["..", ".%2e", "%2e.", "%2e%2e"].contains (String.ofList segment).toLower

/-- A letter of a drive with its mark. -/
def isDrive : List Char → Bool
  | [c, mark] => Iri.isLetter c && (mark = ':' || mark = '|')
  | _ => false

/-- The segments of a path of a file.  A drive ends in a colon, and a slash parts it from a name
behind it. -/
def fileSegments (segments : List (List Char)) : List (List Char) :=
  match segments.dropWhile List.isEmpty with
  | (c :: mark :: name) :: rest =>
    if name.isEmpty && isDrive [c, mark] then [c, ':'] :: rest
    else if Iri.isLetter c && mark = ':' then (c :: ':' :: '/' :: name) :: rest
    else (c :: mark :: name) :: rest
  | rest => rest

/-- The segments without the last one; the drive of a file stays. -/
def above (file : Bool) (segments : List (List Char)) : List (List Char) :=
  if file && segments.length = 1 && segments.all isDrive then segments else segments.dropLast

/-- The segments behind some others, with dots resolved.  Dots at the end leave an empty
segment. -/
def resolveDots (file : Bool) : (before segments : List (List Char)) → List (List Char)
  | before, [] => before
  | before, segment :: rest =>
    let trail := if rest.isEmpty then [[]] else []
    if isDoubleDot segment then resolveDots file (above file before ++ trail) rest
    else if isDot segment then resolveDots file (before ++ trail) rest
    else resolveDots file (before ++ [segment]) rest

/-- The normal form of a path behind its first slash. -/
def normalPath (file : Bool) (path : List Char) : List Char :=
  let segments := (path.splitOn '/').map (escape inPath)
  let resolved := resolveDots file [] (if file then fileSegments segments else segments)
  let written := resolved.flatMap ('/' :: ·)
  if file then '/' :: written.dropWhile (· = '/') else written

/-! ### Hosts -/

/-- The characters before the last `@`, if there is one, and those behind it. -/
def splitUser (authority : List Char) : Option (List Char) × List Char :=
  let host := (authority.reverse.takeWhile (· != '@')).reverse
  if host.length < authority.length then
    (some (authority.take (authority.length - host.length - 1)), host)
  else (none, authority)

/-- Name and password with escapes; a colon without a password is left out. -/
def userText (user : List Char) : List Char :=
  let name := escape inUser (user.takeWhile (· != ':'))
  match user.dropWhile (· != ':') with
  | _ :: c :: password => name ++ ':' :: escape inUser (c :: password)
  | _ => name

/-- The host and what is behind it, from its colon on; colons in brackets belong to the host. -/
def splitHost : (bracket : Bool) → List Char → List Char × List Char
  | _, [] => ([], [])
  | bracket, c :: rest =>
    if c = ':' && !bracket then ([], c :: rest)
    else
      let (host, port) := splitHost (c = '[' || (bracket && c != ']')) rest
      (c :: host, port)

/-- The number behind the colon of a port, unless none is written or it is the one of the scheme,
and the characters behind it. -/
def portOf? (scheme : List Char) : List Char → Option (Option Nat × List Char)
  | ':' :: rest =>
    let digits := rest.takeWhile Char.isDigit
    let behind := rest.dropWhile Char.isDigit
    let port := number? 10 digits
    if port.any (65535 < ·) || !(behind.isEmpty || behind.head? = some '\\') then none
    else some (if port = defaultPort? scheme then none else port, behind)
  | rest => some (none, rest)

/-- The rest of an address behind its path. -/
structure Tail where
  query : Option (List Char)
  fragment : Option (List Char)

/-- The query and the fragment at the end of an address. -/
def Tail.ofList (special : Bool) (cs : List Char) : Tail :=
  let (query, rest) : Option (List Char) × List Char :=
    match cs with
    | '?' :: rest => (some (rest.takeWhile (· != '#')), rest.dropWhile (· != '#'))
    | rest => (none, rest)
  ⟨query.map (escape (inQuery special)), rest.tail?.map (escape inFragment)⟩

/-- An address with a host; `isLast` tells whether nothing at all comes behind the host. -/
def hosted? (scheme authority path : List Char) (isLast : Bool) (tail : Tail) : Option Url := do
  let (user, place) := splitUser authority
  if user = some [] && place.isEmpty && !isLast then none
  let (name, behind) := splitHost false place
  let host ← if isSpecial scheme then Host.ofDomain? name else Host.ofOpaque? name
  let user := userText (user.getD [])
  if host.isEmpty && (!behind.isEmpty || !user.isEmpty) then none
  let (port, stray) ← portOf? scheme behind
  let path :=
    if stray.isEmpty then path else '/' :: stray ++ path
  some
    { scheme := scheme
      user := user
      host := some host
      port := port
      path :=
        if path.isEmpty && !isSpecial scheme then [] else normalPath false path.tail
      query := tail.query
      fragment := tail.fragment }

/-- The address of a file, whose host need not be written; a drive has no host. -/
def file? (scheme hierarchy : List Char) (tail : Tail) : Option Url := do
  let (authority, path) := Iri.splitAuthority hierarchy
  let written := authority.getD []
  let path := if isDrive written then written ++ path else path
  let host ← if written.isEmpty || isDrive written then some [] else Host.ofDomain? written
  let path := normalPath true path
  let isBare := host == "localhost".toList || isDrive ((path.drop 1).takeWhile (· != '/'))
  some
    { scheme := scheme
      host := some (if isBare then [] else host)
      path := path
      query := tail.query
      fragment := tail.fragment }

/-- The address with a scheme and what comes behind its colon. -/
def ofParts? (scheme rest : List Char) : Option Url :=
  let special := isSpecial scheme
  let written := rest.takeWhile fun c => !Iri.endsPath c
  let ending := rest.dropWhile fun c => !Iri.endsPath c
  let tail := Tail.ofList special ending
  if special then
    let hierarchy := written.map fun c => if c = '\\' then '/' else c
    if isFile scheme then file? scheme hierarchy tail
    else
      let place := hierarchy.dropWhile (· = '/')
      let authority := place.takeWhile (· != '/')
      let path := place.dropWhile (· != '/')
      hosted? scheme authority path (path.isEmpty && ending.isEmpty) tail
  else
    match written with
    | '/' :: '/' :: place =>
      let authority := place.takeWhile (· != '/')
      let path := place.dropWhile (· != '/')
      hosted? scheme authority path (path.isEmpty && ending.isEmpty) tail
    | '/' :: path =>
      some
        { scheme := scheme
          path := normalPath false path
          query := tail.query
          fragment := tail.fragment }
    | path =>
      some
        { scheme := scheme
          path := escape isControl path
          query := tail.query
          fragment := tail.fragment }

/-- A blank at the ends of an address. -/
def isEdgeBlank (c : Char) : Bool :=
  c ≤ ' '

/-- A character that counts for nothing in an address. -/
def isIgnored (c : Char) : Bool :=
  c = '\t' || c = '\n' || c = '\r'

/-- The characters of an address, without those that do not count. -/
def clean (cs : List Char) : List Char :=
  ((cs.dropWhile isEdgeBlank).reverse.dropWhile isEdgeBlank).reverse.filter fun c => !isIgnored c

/-- The address that a text is, if it is one. -/
def ofText? (text : String) : Option Url :=
  match Iri.splitScheme (clean text.toList) with
  | (some scheme, rest) => ofParts? (scheme.map Char.toLower) rest
  | (none, _) => none

end LinkedQuery.Url
