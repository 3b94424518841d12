/-!
# Escapes in addresses

`Url.escape` writes a character that may not stand in a part of an address as its bytes, each
behind a percent sign.  Which characters these are depends on the part.  `Url.unescape?` reads the
bytes back.
-/

namespace LinkedQuery.Url

/-- A hexadecimal digit of a byte. -/
def hexChar (digit : Nat) : Char :=
  if digit < 10 then Char.ofNat ('0'.toNat + digit) else Char.ofNat ('A'.toNat + (digit - 10))

/-- A character as escaped bytes. -/
def escapeChar (c : Char) : List Char :=
  (String.utf8EncodeChar c).flatMap fun byte =>
    ['%', hexChar (byte.toNat / 16), hexChar (byte.toNat % 16)]

/-- The text with some characters escaped. -/
def escape (escaped : Char → Bool) (cs : List Char) : List Char :=
  cs.flatMap fun c => if escaped c then escapeChar c else [c]

/-! ### The characters that are escaped -/

/-- Everywhere: controls, and all characters beyond ASCII. -/
def isControl (c : Char) : Bool :=
  c < ' ' || '\x7f' ≤ c

/-- In fragments. -/
def inFragment (c : Char) : Bool :=
  isControl c || " \"<>`".toList.contains c

/-- In queries; the addresses of hosts escape a single quote, too. -/
def inQuery (special : Bool) (c : Char) : Bool :=
  isControl c || " \"#<>".toList.contains c || (special && c = '\'')

/-- In the segments of paths. -/
def inPath (c : Char) : Bool :=
  inFragment c || "#?\x7b\x7d".toList.contains c

/-- In names and passwords. -/
def inUser (c : Char) : Bool :=
  inPath c || "/:;=@[\\]^|".toList.contains c

/-! ### Reading escapes -/

/-- The value of a hexadecimal digit. -/
def hexValue? (c : Char) : Option Nat :=
  if c.isDigit then some (c.toNat - '0'.toNat)
  else if 'a' ≤ c ∧ c ≤ 'f' then some (c.toNat - 'a'.toNat + 10)
  else if 'A' ≤ c ∧ c ≤ 'F' then some (c.toNat - 'A'.toNat + 10)
  else none

/-- The bytes of a text with the escapes read. -/
def unescapedBytes : List Char → List UInt8
  | [] => []
  | '%' :: a :: b :: rest =>
    match hexValue? a, hexValue? b with
    | some high, some low => (16 * high + low).toUInt8 :: unescapedBytes rest
    | _, _ => '%'.toUInt8 :: unescapedBytes (a :: b :: rest)
  | c :: rest => String.utf8EncodeChar c ++ unescapedBytes rest

/-- The text with the escapes read, if its bytes are text. -/
def unescape? (cs : List Char) : Option (List Char) :=
  (String.fromUTF8? ⟨(unescapedBytes cs).toArray⟩).map String.toList

end LinkedQuery.Url
