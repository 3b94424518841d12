import LinkedQuery.Number.Shortest

/-!
# Decimal text

A `DecimalStyle` says how the shortest digits of a number are laid out: when an exponent is
written, whether a whole number keeps a decimal, and how ties between digits go.
`Double.text` lays a number out in a style.
-/

namespace LinkedQuery

/-- A layout of decimal digits. -/
structure DecimalStyle where
  tie : Tie
  /-- Whether a whole number written without an exponent ends in a zero decimal. -/
  wholeDecimal : Bool
  /-- Whether a number whose first digit stands at this power of ten is written without an
  exponent. -/
  plain : Int → Bool

/-- The decimal digits of a natural number. -/
def decimalDigits (n : Nat) : List Char :=
  Nat.toDigits 10 n

/-- The decimal digits of an integer, behind a minus sign if it is negative. -/
def integerDigits (n : Int) : List Char :=
  if n < 0 then '-' :: decimalDigits n.natAbs else decimalDigits n.natAbs

/-- Digits times a power of ten, without an exponent. -/
def plainDecimal (wholeDecimal : Bool) (digits : List Char) (place : Int) : List Char :=
  if 0 ≤ place then
    digits ++ List.replicate place.toNat '0' ++ (if wholeDecimal then ['.', '0'] else [])
  else
    let decimals := (-place).toNat
    if decimals < digits.length then
      digits.take (digits.length - decimals) ++ '.' :: digits.drop (digits.length - decimals)
    else
      '0' :: '.' :: (List.replicate (decimals - digits.length) '0' ++ digits)

/-- Digits with a point after the first, and the power of ten of that first digit. -/
def scientificDecimal (digits : List Char) (power : Int) : List Char :=
  let mantissa := digits.take 1 ++ (if digits.length ≤ 1 then [] else '.' :: digits.drop 1)
  mantissa ++ 'e' :: (if power < 0 then '-' else '+') :: decimalDigits power.natAbs

/-- The text of a number in a style. -/
def Double.text (style : DecimalStyle) (x : Double) : List Char :=
  let shortest := x.shortest style.tie
  let digits := decimalDigits shortest.1
  let power := shortest.2 + digits.length - 1
  let magnitude :=
    if style.plain power then plainDecimal style.wholeDecimal digits shortest.2
    else scientificDecimal digits power
  if x.negative then '-' :: magnitude else magnitude

end LinkedQuery
