import LinkedQuery.Json.Basic
import LinkedQuery.Yaml.Scalar

/-!
# Plain YAML scalars

A quoted scalar is a string; a plain one is a string only if it reads as nothing else.
`Plain.ofText` makes that choice, and `Plain.json?` is the JSON value of what has been read.
-/

namespace LinkedQuery.Yaml

/-- The digits of a natural number in a base of at most sixteen. -/
def natural? (base : Nat) (digits : List Char) : Option Nat :=
  if digits.isEmpty then none
  else
    digits.foldlM (fun total c =>
      match hexDigit? c with
      | some value => if value < base then some (total * base + value) else none
      | none => none) 0

/-- Digits behind a zero are no number. -/
def hasLeadingZero : List Char → Bool
  | '0' :: c :: rest => (c :: rest).all Char.isDigit
  | _ => false

/-- A whole number without its sign; a mark tells other bases than ten. -/
def magnitude? : List Char → Option Nat
  | '0' :: 'x' :: digits => natural? 16 digits
  | '0' :: 'o' :: digits => natural? 8 digits
  | '0' :: 'b' :: digits => natural? 2 digits
  | digits => if hasLeadingZero digits then none else natural? 10 digits

/-- Whether a whole number has at most so many bits, the sign of a negative one included. -/
def fitsBits (bits : Nat) (value : Int) : Bool :=
  -(Nat.pow 2 (bits - 1) : Nat) ≤ value && value < (Nat.pow 2 bits : Nat)

/-- The whole number of 128 bits that a plain scalar reads as. -/
def integer? (cs : List Char) : Option Int :=
  let value : Option Int :=
    match cs with
    | '-' :: digits => (magnitude? digits).map fun n => -(n : Int)
    | '+' :: digits => (magnitude? digits).map fun n => (n : Int)
    | digits => (magnitude? digits).map fun n => (n : Int)
  value.filter (fitsBits 128)

/-- The power of ten behind a number's letter `e`. -/
def power? (cs : List Char) : Option Int :=
  match cs with
  | [] => some 0
  | c :: rest =>
    if c = 'e' ∨ c = 'E' then
      match rest with
      | '-' :: digits => (natural? 10 digits).map fun n => -(n : Int)
      | '+' :: digits => (natural? 10 digits).map fun n => (n : Int)
      | digits => (natural? 10 digits).map fun n => (n : Int)
    else none

/-- The double nearest to a decimal; powers that no double reaches are cut short. -/
def nearestDecimal? (negative : Bool) (digits : Nat) (power : Int) : Option Double :=
  if digits = 0 then Double.nearest? negative 0 1
  else
    let size : Int := (Nat.toDigits 10 digits).length
    if 400 < power + size then none
    else if power + size < -400 then Double.nearest? negative 0 1
    else Double.nearest? negative (digits * Nat.pow 10 power.toNat) (Nat.pow 10 (-power).toNat)

/-- The decimal number that a plain scalar reads as, without its sign. -/
def decimal? (negative : Bool) (cs : List Char) : Option Double :=
  let whole := cs.takeWhile Char.isDigit
  let (decimals, rest) : List Char × List Char :=
    match cs.dropWhile Char.isDigit with
    | '.' :: rest => (rest.takeWhile Char.isDigit, rest.dropWhile Char.isDigit)
    | rest => ([], rest)
  match natural? 10 (whole ++ decimals), power? rest with
  | some digits, some power => nearestDecimal? negative digits (power - decimals.length)
  | _, _ => none

/-- What a plain scalar reads as. -/
inductive Plain where
  | null
  | boolean (value : Bool)
  | integer (value : Int)
  | double (value : Double)
  | infinity (negative : Bool)
  | notANumber
  | string (text : String)
deriving Repr

/-- The words of a plain scalar, and what they read as. -/
def plainWords : List (List String × Plain) :=
  [(["", "null", "Null", "NULL", "~"], .null),
    (["true", "True", "TRUE"], .boolean true),
    (["false", "False", "FALSE"], .boolean false),
    ([".inf", ".Inf", ".INF", "+.inf", "+.Inf", "+.INF"], .infinity false),
    (["-.inf", "-.Inf", "-.INF"], .infinity true),
    ([".nan", ".NaN", ".NAN"], .notANumber)]

/-- The number that a plain scalar reads as, if it is one. -/
def plainNumber? (cs : List Char) : Option Plain :=
  let (negative, unsigned) : Bool × List Char :=
    match cs with
    | '-' :: rest => (true, rest)
    | '+' :: rest => (false, rest)
    | rest => (false, rest)
  match integer? cs with
  | some value => some (.integer value)
  | none =>
    if hasLeadingZero unsigned then none
    else (decimal? negative unsigned).map .double

/-- Reads the text of a plain scalar. -/
def Plain.ofText (text : String) : Plain :=
  match plainWords.find? fun entry => entry.1.contains text with
  | some entry => entry.2
  | none => (plainNumber? text.toList).getD (.string text)

/-- The JSON value of a plain scalar.  Numbers that are not finite are null, and whole numbers
have at most 64 bits. -/
def Plain.json? : Plain → Option Json
  | .null => some .null
  | .boolean value => some (.boolean value)
  | .integer value =>
    if fitsBits 64 value then some (.number (.integer value)) else none
  | .double value => some (.number (.double value))
  | .infinity _ => some .null
  | .notANumber => some .null
  | .string text => some (.string text)

end LinkedQuery.Yaml
