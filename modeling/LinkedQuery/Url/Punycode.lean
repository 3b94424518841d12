/-!
# Letters in host names

A label of a host name is written in ASCII as its ASCII characters, followed by digits that tell
where its other characters stand.  The characters are taken in increasing order, and a digit tells
how far the next one is, in code points and in places; `Punycode.adapt` fits the digits to the
distances seen so far.
-/

namespace LinkedQuery.Url.Punycode

/-- A digit of base 36. -/
def digitChar (digit : Nat) : Char :=
  if digit < 26 then Char.ofNat ('a'.toNat + digit) else Char.ofNat ('0'.toNat + (digit - 26))

/-- The least digit that is not the last one of a number, at a place. -/
def threshold (bias place : Nat) : Nat :=
  min 26 (max 1 (36 * (place + 1) - bias))

/-- The digits of a distance, the lowest one first, from a place on. -/
def distanceDigits (bias place distance : Nat) : List Char :=
  let low := threshold bias place
  if distance < low then [digitChar distance]
  else
    digitChar (low + (distance - low) % (36 - low))
      :: distanceDigits bias (place + 1) ((distance - low) / (36 - low))
termination_by distance
decreasing_by
  have positive : 1 ≤ threshold bias place := by unfold threshold; omega
  have least : (distance - threshold bias place) / (36 - threshold bias place)
      ≤ distance - threshold bias place := Nat.div_le_self _ _
  omega

/-- The number of times that a distance is divided to become small, and what it becomes. -/
def reduce (distance : Nat) : Nat × Nat :=
  if 455 < distance then
    let (steps, rest) := reduce (distance / 35)
    (steps + 1, rest)
  else (0, distance)
termination_by distance
decreasing_by omega

/-- The bias behind a distance, with so many characters written. -/
def adapt (distance written : Nat) (isFirst : Bool) : Nat :=
  let scaled := if isFirst then distance / 700 else distance / 2
  let (steps, rest) := reduce (scaled + scaled / written)
  36 * steps + 36 * rest / (rest + 38)

/-- What is known on the way through a label. -/
structure Progress where
  digits : List Char := []
  distance : Nat := 0
  bias : Nat := 72
  /-- The number of characters written. -/
  written : Nat

/-- One character of the label, when all characters before a code point are written. -/
def Progress.pass (ascii point : Nat) (progress : Progress) (c : Char) : Progress :=
  if c.toNat < point then { progress with distance := progress.distance + 1 }
  else if c.toNat = point then
    { digits := progress.digits ++ distanceDigits progress.bias 0 progress.distance
      distance := 0
      bias := adapt progress.distance (progress.written + 1) (progress.written == ascii)
      written := progress.written + 1 }
  else progress

/-- Writes the characters of some code points, which are in order; all those before `least` are
written. -/
def writePoints (label : List Char) (ascii : Nat) :
    (least : Nat) → (points : List Nat) → Progress → Progress
  | _, [], progress => progress
  | least, point :: points, progress =>
    let nearer := { progress with
      distance := progress.distance + (point - least) * (progress.written + 1) }
    let passed := label.foldl (Progress.pass ascii point) nearer
    writePoints label ascii (point + 1) points { passed with distance := passed.distance + 1 }

/-- A label in ASCII. -/
def encode (label : List Char) : List Char :=
  let ascii := label.filter fun c => c < '\x80'
  let points := ((label.filter fun c => '\x80' ≤ c).map Char.toNat).mergeSort.eraseDups
  let progress := writePoints label ascii.length 128 points { written := ascii.length }
  ascii ++ (if ascii.isEmpty then [] else ['-']) ++ progress.digits

end LinkedQuery.Url.Punycode
