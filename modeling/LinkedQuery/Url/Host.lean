import LinkedQuery.Iri.Components
import LinkedQuery.Url.Escape
import LinkedQuery.Url.Punycode

/-!
# Hosts

A host is an address of eight groups in brackets, and otherwise either any name,
`Host.ofOpaque?`, or the name of a domain or four numbers, `Host.ofDomain?`.  Both give the text
of the host in its normal form.
-/

namespace LinkedQuery.Url

/-! ### Addresses of eight groups -/

/-- The value of digits in a base of at most sixteen, if there are some. -/
def number? (base : Nat) (digits : List Char) : Option Nat :=
  if digits.isEmpty then none
  else
    digits.foldlM (fun value c =>
      (hexValue? c).bind fun digit => if digit < base then some (base * value + digit) else none) 0

/-- The groups of one side of a gap.  Four numbers with points between them may be the last two
groups. -/
def groupsOf? (side : List Char) : Option (List Nat) :=
  if side.isEmpty then some []
  else
    (side.splitOn ':').foldlM (fun groups part =>
      if Iri.isDottedAddress part then
        match (part.splitOn '.').mapM (number? 10) with
        | some [a, b, c, d] => some (groups ++ [256 * a + b, 256 * c + d])
        | _ => none
      else (number? 16 part).map fun group => groups ++ [group]) []

/-- The eight groups of an address that is written with at most one gap. -/
def groups? (address : List Char) : Option (List Nat) :=
  if !Iri.isGroupAddress address then none
  else
    match Iri.splitAtGap address with
    | none => groupsOf? address
    | some (before, behind) => do
      let left ← groupsOf? before
      let right ← groupsOf? behind
      some (left ++ List.replicate (8 - left.length - right.length) 0 ++ right)

/-- The number of zeros in front. -/
def zeroCount (groups : List Nat) : Nat :=
  (groups.takeWhile (· = 0)).length

/-- Where the longest stretch of zeros begins, the first one of several, and its length. -/
def longestZeros : List Nat → Nat × Nat
  | [] => (0, 0)
  | group :: groups =>
    let later := longestZeros groups
    let here := zeroCount (group :: groups)
    if later.2 ≤ here then (0, here) else (later.1 + 1, later.2)

/-- Groups with colons between them. -/
def groupText (groups : List Nat) : List Char :=
  [':'].intercalate (groups.map (Nat.toDigits 16))

/-- The text of an address: a gap stands for the longest stretch of at least two zeros. -/
def addressText (groups : List Nat) : List Char :=
  let (start, length) := longestZeros groups
  if length < 2 then groupText groups
  else groupText (groups.take start) ++ [':', ':'] ++ groupText (groups.drop (start + length))

/-- A host in brackets, from the characters behind the first one. -/
def bracketed? (cs : List Char) : Option (List Char) :=
  if cs.getLast? = some ']' then
    (groups? cs.dropLast).map fun groups => '[' :: (addressText groups ++ [']'])
  else none

/-! ### Names -/

/-- A character that no host may hold. -/
def isForbidden (c : Char) : Bool :=
  "\x00\t\n\r #/:<>?@[\\]^|".toList.contains c

/-- Any name as a host. -/
def Host.ofOpaque? (cs : List Char) : Option (List Char) :=
  match cs with
  | '[' :: rest => bracketed? rest
  | cs => if cs.any isForbidden then none else some (escape isControl cs)

/-- A label of a domain in ASCII. -/
def asciiLabel (label : List Char) : List Char :=
  if label.all fun c => c < '\x80' then label
  else ['x', 'n', '-', '-'] ++ Punycode.encode label

/-- The name of a domain in ASCII and in small letters. -/
def asciiDomain? (cs : List Char) : Option (List Char) :=
  let labels := ((cs.map Char.toLower).splitOn '.').map asciiLabel
  let domain := ['.'].intercalate labels
  if domain.isEmpty || domain.any fun c => isForbidden c || isControl c || c = '%' then none
  else some domain

/-- A number of an address, in base ten, or as marked in base eight or sixteen. -/
def addressNumber? : List Char → Option Nat
  | ['0'] => some 0
  | ['0', 'x'] => some 0
  | '0' :: 'x' :: digits => number? 16 digits
  | '0' :: digits => number? 8 digits
  | digits => number? 10 digits

/-- The parts of a domain between points, but for an empty one at the end. -/
def domainParts (domain : List Char) : List (List Char) :=
  let parts := domain.splitOn '.'
  if parts.getLast? = some [] then parts.dropLast else parts

/-- Whether the last part of a domain is a number, so that all of them must be. -/
def endsInNumber (domain : List Char) : Bool :=
  match (domainParts domain).getLast? with
  | some part => (!part.isEmpty && part.all Char.isDigit) || (addressNumber? part).isSome
  | none => false

/-- The address of 32 bits that some numbers stand for: the last one fills what the others, of
eight bits each, leave. -/
def addressValue? (numbers : List Nat) : Option Nat :=
  match numbers.getLast? with
  | none => none
  | some last =>
    let lead := numbers.dropLast
    let room := Nat.pow 256 (4 - lead.length)
    if numbers.length ≤ 4 && lead.all (· < 256) && last < room then
      some (lead.foldl (fun value number => 256 * value + number) 0 * room + last)
    else none

/-- The text of an address of 32 bits. -/
def dottedText (value : Nat) : List Char :=
  ['.'].intercalate ([3, 2, 1, 0].map fun place =>
    Nat.toDigits 10 (value / Nat.pow 256 place % 256))

/-- The name of a domain, or the numbers of an address, as a host. -/
def Host.ofDomain? (cs : List Char) : Option (List Char) :=
  match cs with
  | '[' :: rest => bracketed? rest
  | cs => do
    let domain ← asciiDomain? (← unescape? cs)
    if endsInNumber domain then
      (addressValue? (← (domainParts domain).mapM addressNumber?)).map dottedText
    else some domain

end LinkedQuery.Url
