import LinkedQuery.Json.Basic
import LinkedQuery.Json.Fault

/-!
# Reading JSON

`Json.parse` reads a text as one JSON value in the strict grammar: no leading zeros, no raw
control characters, no lone surrogates, nothing after the value.  Each reading function takes
the characters left and returns a `Taken`, a result together with what remains; what remains is
shorter, and that is why the loops over items, entries and characters end.  Nesting is
bounded by a budget that every array and object spends one unit of.  A reading that fails gives
a `Halt`, from which `Json.parse` computes the line and the column.
-/

namespace LinkedQuery.Json

/-- A fault noticed some bytes behind the start of the characters left. -/
structure Halt where
  fault : Fault
  rest : List Char
  ahead : Nat

/-- A result read off the front of some characters, and the fewer than `bound` that remain. -/
structure Taken (α : Type) (bound : Nat) where
  value : α
  rest : List Char
  shorter : rest.length < bound

/-- A larger bound holds as well. -/
def Taken.relax {α : Type} {bound : Nat} (taken : Taken α bound) (larger : Nat)
    (h : bound ≤ larger) : Taken α larger :=
  ⟨taken.value, taken.rest, Nat.lt_of_lt_of_le taken.shorter h⟩

/-- Another value with the same characters left. -/
def Taken.map {α β : Type} {bound : Nat} (f : α → β) (taken : Taken α bound) : Taken β bound :=
  ⟨f taken.value, taken.rest, taken.shorter⟩

/-- A reading of the front of some characters. -/
abbrev Reader (α : Type) := (input : List Char) → Except Halt (Taken α input.length)

/-- Blanks between the parts of a value. -/
def isBlank (c : Char) : Bool :=
  c = ' ' || c = '\n' || c = '\t' || c = '\r'

/-- The characters from the first that is not blank. -/
def skipBlanks (input : List Char) : List Char :=
  input.dropWhile isBlank

theorem length_dropWhile_le (p : Char → Bool) (input : List Char) :
  (input.dropWhile p).length ≤ input.length
  := (List.dropWhile_sublist p).length_le

theorem length_lt_length_cons (c : Char) (rest : List Char) :
  rest.length < (c :: rest).length
  := Nat.lt_succ_self _

theorem length_le_length_succ (rest : List Char) :
  rest.length ≤ rest.length + 1
  := Nat.le_succ _

theorem length_skipBlanks_le (input : List Char) :
  (skipBlanks input).length ≤ input.length
  := length_dropWhile_le isBlank input

/-! ### Numbers -/

/-- The value of a decimal digit. -/
def digitValue (c : Char) : Nat :=
  c.toNat - '0'.toNat

/-- The least number that does not fit 64 bits. -/
def wordBound : Nat := Nat.pow 2 64

/-- Digits are taken up while the number stays below a bound; the others are left. -/
def absorb (bound : Nat) : Nat → List Char → Nat × List Char
  | total, [] => (total, [])
  | total, c :: rest =>
    if total * 10 + digitValue c < bound then absorb bound (total * 10 + digitValue c) rest
    else (total, c :: rest)

/-- A number whose significand and power of ten are known. -/
def scaledNumber (negative : Bool) (significand : Nat) (exponent : Int) (rest : List Char) :
    Except Halt (Taken Number (rest.length + 1)) :=
  match Double.ofDecimal? negative significand exponent with
  | some value => .ok ⟨.double value, rest, by omega⟩
  | none => .error ⟨.numberOutOfRange, rest, 0⟩

/-- The least number that does not fit 31 bits. -/
def exponentBound : Nat := Nat.pow 2 31

/-- The fault of characters that should begin with a digit. -/
def missingDigit : List Char → Halt
  | [] => ⟨.unfinishedValue, [], 0⟩
  | c :: rest => ⟨.invalidNumber, c :: rest, 1⟩

/-- The digits of a power of ten behind its sign.  A power beyond 31 bits is not read to its end:
it makes the number zero or puts it out of range. -/
def powerOfTen (negative : Bool) (significand : Nat) (exponent : Int) (negativePower : Bool)
    (input : List Char) : Except Halt (Taken Number (input.length + 1)) :=
  let digits := input.takeWhile Char.isDigit
  let rest := input.dropWhile Char.isDigit
  have bound : rest.length ≤ input.length := length_dropWhile_le Char.isDigit input
  if digits.isEmpty then .error (missingDigit input)
  else
    match absorb exponentBound 0 digits with
    | (power, []) =>
      let total := if negativePower then exponent - (power : Int) else exponent + (power : Int)
      (scaledNumber negative significand total rest).map (·.relax _ (by omega))
    | (_, left) =>
      if significand ≠ 0 ∧ negativePower = false then
        .error ⟨.numberOutOfRange, left.drop 1 ++ rest, 0⟩
      else (scaledNumber negative 0 0 rest).map (·.relax _ (by omega))

/-- The part of a number behind the letter `e`. -/
def exponentPart (negative : Bool) (significand : Nat) (exponent : Int) :
    (input : List Char) → Except Halt (Taken Number (input.length + 1))
  | [] => .error (missingDigit [])
  | c :: rest =>
    if c = '+' then
      (powerOfTen negative significand exponent false rest).map (·.relax _ (by simp))
    else if c = '-' then
      (powerOfTen negative significand exponent true rest).map (·.relax _ (by simp))
    else powerOfTen negative significand exponent false (c :: rest)

/-- The part of a number behind its point. -/
def decimalsPart (negative : Bool) (significand : Nat) (exponent : Int) (input : List Char) :
    Except Halt (Taken Number (input.length + 1)) :=
  have bound := length_dropWhile_le Char.isDigit input
  let decimals := input.takeWhile Char.isDigit
  if decimals.isEmpty then .error (missingDigit input)
  else
    let (significand, ignored) := absorb wordBound significand decimals
    let exponent := exponent - ((decimals.length - ignored.length : Nat) : Int)
    match following : input.dropWhile Char.isDigit with
    | [] => (scaledNumber negative significand exponent []).map (·.relax _ (by simp))
    | c :: left =>
      have : left.length + 1 ≤ input.length := by simpa [following] using bound
      if c = 'e' ∨ c = 'E' then
        (exponentPart negative significand exponent left).map (·.relax _ (by omega))
      else
        (scaledNumber negative significand exponent (c :: left)).map
          (·.relax _ (by simp only [List.length_cons]; omega))

/-- A whole number whose digits left `dropped` over: an integer if all its digits fit 64 bits,
sign included. -/
def wholeNumber (negative : Bool) (significand : Nat) (dropped input : List Char) :
    Except Halt (Taken Number (input.length + 1)) :=
  if dropped = [] ∧ negative = false then .ok ⟨.integer significand, input, by omega⟩
  else if dropped = [] ∧ 0 < significand ∧ significand ≤ Nat.pow 2 63 then
    .ok ⟨.integer (-(significand : Int)), input, by omega⟩
  else scaledNumber negative significand dropped.length input

/-- What may follow the digits before the point: decimals, an exponent, or neither. -/
def fractionPart (negative : Bool) (whole input : List Char) :
    Except Halt (Taken Number (input.length + 1)) :=
  let (significand, dropped) := absorb wordBound 0 whole
  match input with
  | [] => wholeNumber negative significand dropped []
  | c :: left =>
    if c = '.' then
      (decimalsPart negative significand dropped.length left).map (·.relax _ (by simp))
    else if c = 'e' ∨ c = 'E' then
      (exponentPart negative significand dropped.length left).map (·.relax _ (by simp))
    else wholeNumber negative significand dropped (c :: left)

/-- A number behind its sign. -/
def unsignedNumber (negative : Bool) : Reader Number
  | [] => .error ⟨.unfinishedValue, [], 0⟩
  | c :: left =>
    have bound := length_dropWhile_le Char.isDigit left
    if c = '0' then
      match left with
      | [] => (fractionPart negative ['0'] []).map (·.relax _ (by simp))
      | d :: left' =>
        if d.isDigit then .error ⟨.invalidNumber, d :: left', 1⟩
        else (fractionPart negative ['0'] (d :: left')).map (·.relax _ (by simp))
    else if c.isDigit then
      (fractionPart negative (c :: left.takeWhile Char.isDigit)
        (left.dropWhile Char.isDigit)).map (·.relax _ (by simp only [List.length_cons]; omega))
    else .error ⟨.invalidNumber, c :: left, 1⟩

/-! ### Strings -/

/-- The value of a hexadecimal digit. -/
def hexValue? (c : Char) : Option Nat :=
  if c.isDigit then some (c.toNat - '0'.toNat)
  else if 'a' ≤ c ∧ c ≤ 'f' then some (c.toNat - 'a'.toNat + 10)
  else if 'A' ≤ c ∧ c ≤ 'F' then some (c.toNat - 'A'.toNat + 10)
  else none

/-- The code unit written by four hexadecimal digits. -/
def codeUnit : Reader Nat
  | a :: b :: c :: d :: rest =>
    match hexValue? a, hexValue? b, hexValue? c, hexValue? d with
    | some a', some b', some c', some d' =>
      .ok ⟨((a' * 16 + b') * 16 + c') * 16 + d', rest, by simp only [List.length_cons]; omega⟩
    | _, _, _, _ => .error ⟨.invalidEscape, a :: b :: c :: d :: rest, 4⟩
  | input =>
    if byteCount input < 4 then .error ⟨.unfinishedString, [], 0⟩
    else .error ⟨.invalidEscape, input, 4⟩

/-- The character of a surrogate pair, behind its first half. -/
def trailingSurrogate (leading : Nat) : Reader Char
  | [] => .error ⟨.unfinishedString, [], 0⟩
  | [c] =>
    if c = '\\' then .error ⟨.unfinishedString, [], 0⟩
    else .error ⟨.unfinishedSurrogatePair, [c], 1⟩
  | c :: d :: rest =>
    if c ≠ '\\' then .error ⟨.unfinishedSurrogatePair, c :: d :: rest, 1⟩
    else if d ≠ 'u' then .error ⟨.unfinishedSurrogatePair, d :: rest, 1⟩
    else
      match codeUnit rest with
      | .error halt => .error halt
      | .ok ⟨trailing, rest', shorter⟩ =>
        if 0xDC00 ≤ trailing ∧ trailing ≤ 0xDFFF then
          .ok ⟨Char.ofNat (0x10000 + (leading - 0xD800) * 0x400 + (trailing - 0xDC00)), rest', by
            simp only [List.length_cons]; omega⟩
        else .error ⟨.loneSurrogate, rest', 0⟩

/-- The character of an escape of four hexadecimal digits, or of two for a surrogate pair. -/
def unicodeEscape : Reader Char := fun input =>
  match codeUnit input with
  | .error halt => .error halt
  | .ok ⟨unit, rest, shorter⟩ =>
    if 0xDC00 ≤ unit ∧ unit ≤ 0xDFFF then .error ⟨.loneSurrogate, rest, 0⟩
    else if 0xD800 ≤ unit ∧ unit ≤ 0xDBFF then
      (trailingSurrogate unit rest).map (·.relax _ (by omega))
    else .ok ⟨Char.ofNat unit, rest, shorter⟩

/-- The character that a letter stands for behind a backslash. -/
def letterEscape? (c : Char) : Option Char :=
  if c = '"' ∨ c = '\\' ∨ c = '/' then some c
  else if c = 'b' then some '\x08'
  else if c = 'f' then some '\x0c'
  else if c = 'n' then some '\n'
  else if c = 'r' then some '\r'
  else if c = 't' then some '\t'
  else none

/-- The character written by an escape, behind its backslash. -/
def escaped : Reader Char
  | [] => .error ⟨.unfinishedString, [], 0⟩
  | c :: rest =>
    if c = 'u' then (unicodeEscape rest).map (·.relax _ (by simp))
    else
      match letterEscape? c with
      | some char => .ok ⟨char, rest, length_lt_length_cons c rest⟩
      | none => .error ⟨.invalidEscape, c :: rest, 1⟩

/-- The characters of a string, behind its opening quote. -/
def stringBody : Reader (List Char)
  | [] => .error ⟨.unfinishedString, [], 0⟩
  | c :: rest =>
    if c = '"' then .ok ⟨[], rest, length_lt_length_cons c rest⟩
    else if c = '\\' then
      match escaped rest with
      | .error halt => .error halt
      | .ok ⟨char, rest', shorter⟩ =>
        (stringBody rest').map fun taken =>
          (taken.map (char :: ·)).relax _ (by simp only [List.length_cons]; omega)
    else if c.toNat < 32 then .error ⟨.controlCharacter, c :: rest, 1⟩
    else
      (stringBody rest).map fun taken => (taken.map (c :: ·)).relax _ (by simp)
termination_by input => input.length

/-! ### Values -/

/-- A word such as `null`, behind its first letter. -/
def word (value : Json) :
    (expected input : List Char) → Except Halt (Taken Json (input.length + 1))
  | [], input => .ok ⟨value, input, by omega⟩
  | _ :: _, [] => .error ⟨.unfinishedValue, [], 0⟩
  | e :: expected, c :: input =>
    if c = e then (word value expected input).map (·.relax _ (by simp))
    else .error ⟨.expectedWord, c :: input, 1⟩

/-- The items of an array from the first on, with the closing bracket. -/
def items (item : Reader Json) (input : List Char) :
    Except Halt (Taken (List Json) input.length) :=
  match item input with
  | .error halt => .error halt
  | .ok ⟨value, rest, shorter⟩ =>
    have bound := length_skipBlanks_le rest
    match next : skipBlanks rest with
    | [] => .error ⟨.unfinishedList, [], 0⟩
    | c :: rest' =>
      have : rest'.length < input.length := by simp only [next, List.length_cons] at bound; omega
      if c = ']' then .ok ⟨[value], rest', this⟩
      else if c = ',' then
        match skipBlanks rest' with
        | [] => .error ⟨.unfinishedValue, [], 0⟩
        | d :: left =>
          if d = ']' then .error ⟨.trailingComma, d :: left, 1⟩
          else
            (items item rest').map fun taken => (taken.map (value :: ·)).relax _ (by omega)
      else .error ⟨.expectedListCommaOrEnd, c :: rest', 1⟩
termination_by input.length

/-- A key behind its opening quote, the colon and the value. -/
def entry (item : Reader Json) : Reader (String × Json) := fun input =>
  match stringBody input with
  | .error halt => .error halt
  | .ok ⟨key, rest, shorter⟩ =>
    have bound := length_skipBlanks_le rest
    match next : skipBlanks rest with
    | [] => .error ⟨.unfinishedObject, [], 0⟩
    | c :: rest' =>
      have : rest'.length < input.length := by simp only [next, List.length_cons] at bound; omega
      if c = ':' then
        (item rest').map fun taken =>
          (taken.map fun value => (String.ofList key, value)).relax _ (by omega)
      else .error ⟨.expectedColon, c :: rest', 1⟩

/-- The entries of an object behind the first key's opening quote, with the closing brace. -/
def entries (item : Reader Json) (input : List Char) :
    Except Halt (Taken (List (String × Json)) input.length) :=
  match entry item input with
  | .error halt => .error halt
  | .ok ⟨first, rest, shorter⟩ =>
    have bound := length_skipBlanks_le rest
    match next : skipBlanks rest with
    | [] => .error ⟨.unfinishedObject, [], 0⟩
    | c :: rest' =>
      have shorter' : rest'.length < input.length := by
        simp only [next, List.length_cons] at bound
        omega
      if c = '\x7d' then .ok ⟨[first], rest', shorter'⟩
      else if c = ',' then
        have keyBound := length_skipBlanks_le rest'
        match key : skipBlanks rest' with
        | [] => .error ⟨.unfinishedValue, [], 0⟩
        | d :: left =>
          have : left.length < input.length := by
            simp only [key, List.length_cons] at keyBound
            omega
          if d = '"' then
            (entries item left).map fun taken => (taken.map (first :: ·)).relax _ (by omega)
          else if d = '\x7d' then .error ⟨.trailingComma, d :: left, 1⟩
          else .error ⟨.keyNotString, d :: left, 1⟩
      else .error ⟨.expectedObjectCommaOrEnd, c :: rest', 1⟩
termination_by input.length

/-- The rest of an array behind its opening bracket. -/
def arrayBody (item : Reader Json) : Reader Json := fun input =>
  have bound := length_skipBlanks_le input
  match next : skipBlanks input with
  | [] => .error ⟨.unfinishedList, [], 0⟩
  | c :: rest =>
    if c = ']' then
      .ok ⟨.array [], rest, by simp only [next, List.length_cons] at bound; omega⟩
    else (items item input).map (·.map .array)

/-- The rest of an object behind its opening brace. -/
def objectBody (item : Reader Json) : Reader Json := fun input =>
  have bound := length_skipBlanks_le input
  match next : skipBlanks input with
  | [] => .error ⟨.unfinishedObject, [], 0⟩
  | c :: rest =>
    have : rest.length < input.length := by simp only [next, List.length_cons] at bound; omega
    if c = '\x7d' then .ok ⟨.object [], rest, this⟩
    else if c = '"' then
      (entries item rest).map fun taken =>
        (taken.map fun pairs => .object (Entries.ofList pairs)).relax _ (by omega)
    else .error ⟨.keyNotString, c :: rest, 1⟩

/-- A value that is neither an array nor an object, from its first character on. -/
def scalar (c : Char) (rest : List Char) : Except Halt (Taken Json (rest.length + 1)) :=
  if c = 'n' then word .null ['u', 'l', 'l'] rest
  else if c = 't' then word (.boolean true) ['r', 'u', 'e'] rest
  else if c = 'f' then word (.boolean false) ['a', 'l', 's', 'e'] rest
  else if c = '-' then
    (unsignedNumber true rest).map fun taken =>
      (taken.map .number).relax _ (length_le_length_succ rest)
  else if c.isDigit then (unsignedNumber false (c :: rest)).map (·.map .number)
  else if c = '"' then
    (stringBody rest).map fun taken =>
      (taken.map fun text => .string (String.ofList text)).relax _ (length_le_length_succ rest)
  else .error ⟨.expectedValue, c :: rest, 1⟩

/-- A value nested at most `depth` deep, behind any blanks. -/
def nested : (depth : Nat) → Reader Json
  | depth, input =>
    have bound := length_skipBlanks_le input
    match next : skipBlanks input with
    | [] => .error ⟨.unfinishedValue, [], 0⟩
    | c :: rest =>
      have : rest.length < input.length := by simp only [next, List.length_cons] at bound; omega
      if c = '[' ∨ c = '\x7b' then
        match depth with
        | 0 => .error ⟨.tooDeep, c :: rest, 1⟩
        | depth + 1 =>
          let body := if c = '[' then arrayBody (nested depth) rest
            else objectBody (nested depth) rest
          body.map (·.relax _ (by omega))
      else (scalar c rest).map (·.relax _ (by omega))

/-- How deep documents may nest. -/
def greatestDepth : Nat := 127

/-- A whole text read as one value that nests at most `depth` deep. -/
def parseNested (depth : Nat) (text : String) : Except Misread Json :=
  let input := text.toList
  let misread (halt : Halt) : Misread :=
    let size := byteCount input
    let place := placeAfter input (min size (size - byteCount halt.rest + halt.ahead)) 1 0
    ⟨halt.fault, place.1, place.2⟩
  match nested depth input with
  | .error halt => .error (misread halt)
  | .ok taken =>
    match skipBlanks taken.rest with
    | [] => .ok taken.value
    | c :: rest => .error (misread ⟨.trailingCharacters, c :: rest, 1⟩)

/-- A whole text read as one value. -/
def parse (text : String) : Except Misread Json :=
  parseNested greatestDepth text

end LinkedQuery.Json
