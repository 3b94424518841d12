import LinkedQuery.Url.Host

/-!
# Addresses

A `Url` is an address that a document may be fetched from, in its normal form: parts that can be
written in several ways are written in one.  `Url.text` is the address as text.
-/

namespace LinkedQuery

/-- An address.  Its parts are written with escapes. -/
structure Url where
  scheme : List Char
  /-- The name and the password in front of the host. -/
  user : List Char := []
  host : Option (List Char) := none
  port : Option Nat := none
  path : List Char
  query : Option (List Char)
  fragment : Option (List Char)
deriving DecidableEq, Repr

namespace Url

/-- The text in front of the path.  A path that begins with two slashes is kept apart from a
host. -/
def lead (url : Url) : List Char :=
  match url.host with
  | some host =>
    ['/', '/'] ++ (if url.user.isEmpty then [] else url.user ++ ['@']) ++ host
      ++ url.port.elim [] fun port => ':' :: Nat.toDigits 10 port
  | none => if ['/', '/'].isPrefixOf url.path then ['/', '.'] else []

/-- The address as text. -/
def text (url : Url) : String :=
  String.ofList (url.scheme ++ ':' :: url.lead ++ url.path ++ url.query.elim [] ('?' :: ·)
    ++ url.fragment.elim [] ('#' :: ·))

/-- The address without name and password, if these can be read. -/
def anonymous (url : Url) : Url :=
  let name := url.user.takeWhile (· != ':')
  let isRead (cs : List Char) : Bool := (unescape? cs).isSome
  if isRead name && (!name.isEmpty || isRead url.user) then { url with user := [] } else url

/-! ### Schemes -/

/-- The ports of the schemes that name a host, where none is written. -/
def defaultPorts : List (String × Nat) :=
  [("http", 80), ("https", 443), ("ws", 80), ("wss", 443), ("ftp", 21)]

/-- The port of a scheme where none is written. -/
def defaultPort? (scheme : List Char) : Option Nat :=
  defaultPorts.lookup (String.ofList scheme)

/-- Whether a scheme is the one of files. -/
def isFile (scheme : List Char) : Bool :=
  scheme == "file".toList

/-- Whether addresses of a scheme name a host, or a file. -/
def isSpecial (scheme : List Char) : Bool :=
  isFile scheme || (defaultPort? scheme).isSome

/-- Whether documents are fetched by a scheme. -/
def isFetched (url : Url) : Bool :=
  url.scheme == "http".toList || url.scheme == "https".toList

end Url

end LinkedQuery
