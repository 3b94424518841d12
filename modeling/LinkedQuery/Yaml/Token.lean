import LinkedQuery.Yaml.Scalar

/-!
# YAML tokens

`Token.ofChars` breaks a text up into tokens; the last one is the end of the text or a fault.
Blocks are told by their columns, and get tokens of their own where they begin and end.  A key is
only known by the colon behind it: a token that may begin one is a `Candidate` while the key can
still end in front of a colon, and a token is handed out once it is no candidate any more.  So a
fault takes the tokens with it that have not been handed out.
-/

namespace LinkedQuery.Yaml

/-- The kinds of tokens. -/
inductive Token.Kind where
  | documentStart
  | documentEnd
  | textEnd
  | blockSequence
  | blockMapping
  | blockEnd
  | flowSequence
  | flowSequenceEnd
  | flowMapping
  | flowMappingEnd
  | item
  | comma
  | key
  | value
  | scalar (plain : Bool) (text : String)
  /-- No token can be read from here on. -/
  | fault (fault : Fault)
deriving DecidableEq, Repr

/-- A token with the places where it begins and ends. -/
structure Token where
  kind : Token.Kind
  start : Mark
  stop : Mark
deriving Repr

/-- A token that a key may begin with. -/
structure Candidate where
  /-- The number of the token. -/
  number : Nat
  mark : Mark
  /-- Whether nothing else than a key can begin there. -/
  isRequired : Bool

/-- A key stands in one line, and its colon is at most 1024 bytes from its first character. -/
def Candidate.isStale (candidate : Candidate) (mark : Mark) : Bool :=
  candidate.mark.line < mark.line || candidate.mark.bytes + 1024 < mark.bytes

/-- The fault of a required key that is none. -/
def Candidate.fault (candidate : Candidate) (mark : Mark) : Fault :=
  .misread .noColon mark (some (.key, candidate.mark))

/-- What is known of a text on the way through it. -/
structure Scanner where
  cursor : Cursor
  /-- The columns of the blocks around, the innermost first. -/
  blocks : List Nat := []
  /-- The candidate of the innermost collection. -/
  candidate : Option Candidate := none
  /-- The candidates of the collections around a flow collection, the innermost first. -/
  outer : List (Option Candidate) := []
  /-- Whether a key can begin here. -/
  keyAllowed : Bool := true
  /-- The number of tokens handed out. -/
  released : Nat := 0
  /-- The tokens not yet handed out. -/
  waiting : List Token := []

namespace Scanner

/-- A scanner after a step, if there is no fault. -/
abbrev Step := Except Fault Scanner

/-- The place of the next character. -/
def mark (scanner : Scanner) : Mark :=
  scanner.cursor.mark

/-- Whether a flow collection is open. -/
def inFlow (scanner : Scanner) : Bool :=
  !scanner.outer.isEmpty

/-- The column of the innermost block; outside of all blocks, it is less than any. -/
def indent (scanner : Scanner) : Int :=
  match scanner.blocks with
  | [] => -1
  | column :: _ => column

/-- The scanner with a further token. -/
def put (scanner : Scanner) (kind : Token.Kind) (start stop : Mark) : Scanner :=
  { scanner with waiting := scanner.waiting ++ [⟨kind, start, stop⟩] }

/-- The scanner with a token without characters before all but some of the waiting ones. -/
def insert (scanner : Scanner) (before : Nat) (kind : Token.Kind) (mark : Mark) : Scanner :=
  { scanner with
    waiting := scanner.waiting.take before ++ (⟨kind, mark, mark⟩ : Token)
      :: scanner.waiting.drop before }

/-- The scanner behind some characters of its line, which are a token. -/
def take (scanner : Scanner) (kind : Token.Kind) (length : Nat) : Scanner :=
  let stop := scanner.mark.right length
  { scanner.put kind scanner.mark stop with
    cursor := ⟨scanner.cursor.rest.drop length, stop⟩ }

/-! ### Keys -/

/-- The candidates that are still in the running, unless a required one is not. -/
def settle (scanner : Scanner) : Step :=
  let candidates := (scanner.candidate :: scanner.outer).filterMap id
  let isMissed (candidate : Candidate) : Bool :=
    candidate.isRequired && candidate.isStale scanner.mark
  match candidates.find? isMissed with
  | some candidate => .error (candidate.fault scanner.mark)
  | none =>
    let keep (candidate : Option Candidate) : Option Candidate :=
      candidate.filter fun candidate => !candidate.isStale scanner.mark
    .ok { scanner with candidate := keep scanner.candidate, outer := scanner.outer.map keep }

/-- The scanner without the candidate of the innermost collection. -/
def dismiss (scanner : Scanner) : Step :=
  match scanner.candidate with
  | some candidate =>
    if candidate.isRequired then .error (candidate.fault scanner.mark)
    else .ok { scanner with candidate := none }
  | none => .ok scanner

/-- The scanner with the next token as a candidate, where a key is allowed.  In the column of its
block a token must begin a key. -/
def nominate (scanner : Scanner) : Step :=
  if scanner.keyAllowed then do
    let scanner ← scanner.dismiss
    let candidate : Candidate :=
      { number := scanner.released + scanner.waiting.length
        mark := scanner.mark
        isRequired := !scanner.inFlow && scanner.indent == scanner.mark.column }
    .ok { scanner with candidate := some candidate }
  else .ok scanner

/-! ### Blocks -/

/-- The scanner without the blocks of greater columns than the one told. -/
def closeBlocks (column : Int) (scanner : Scanner) : Scanner :=
  if scanner.inFlow then scanner
  else
    let closed := scanner.blocks.takeWhile fun (block : Nat) => column < block
    { scanner with
      blocks := scanner.blocks.drop closed.length
      waiting :=
        scanner.waiting ++ closed.map fun _ => ⟨.blockEnd, scanner.mark, scanner.mark⟩ }

/-- The scanner with a block that begins at a place, before all but some of the waiting tokens,
unless a block of its column is open. -/
def openBlock (kind : Token.Kind) (mark : Mark) (before : Nat) (scanner : Scanner) : Scanner :=
  if scanner.inFlow || (mark.column : Int) ≤ scanner.indent then scanner
  else
    { scanner.insert before kind mark with blocks := mark.column :: scanner.blocks }

/-! ### Tokens -/

/-- The end of the text, which is the start of a line. -/
def readEnd (scanner : Scanner) : Step :=
  let mark := if scanner.mark.column = 0 then scanner.mark else scanner.mark.nextLine
  do
    let scanner ← ({ scanner with cursor := ⟨[], mark⟩ }.closeBlocks (-1)).dismiss
    .ok (scanner.put .textEnd mark mark)

/-- A mark between documents. -/
def readDocumentMark (scanner : Scanner) (kind : Token.Kind) : Step := do
  let scanner ← (scanner.closeBlocks (-1)).dismiss
  .ok { scanner.take kind 3 with keyAllowed := false }

/-- The start of a flow collection. -/
def readOpening (scanner : Scanner) (kind : Token.Kind) : Step := do
  let scanner ← scanner.nominate
  .ok { scanner.take kind 1 with
    candidate := none
    outer := scanner.candidate :: scanner.outer
    keyAllowed := true }

/-- The end of a flow collection. -/
def readClosing (scanner : Scanner) (kind : Token.Kind) : Step := do
  let scanner ← scanner.dismiss
  .ok { scanner.take kind 1 with
    candidate := scanner.outer.headD scanner.candidate
    outer := scanner.outer.tail
    keyAllowed := false }

/-- A comma between the parts of a flow collection. -/
def readComma (scanner : Scanner) : Step := do
  let scanner ← scanner.dismiss
  .ok { scanner.take .comma 1 with keyAllowed := true }

/-- The mark before an item of a block, which it may open. -/
def readItem (scanner : Scanner) : Step := do
  if !scanner.inFlow && !scanner.keyAllowed then
    .error (.misread .itemNotAllowed scanner.mark none)
  let scanner ←
    (scanner.openBlock .blockSequence scanner.mark scanner.waiting.length).dismiss
  .ok { scanner.take .item 1 with keyAllowed := true }

/-- The mark before a key that may be any value. -/
def readKey (scanner : Scanner) : Step := do
  if !scanner.inFlow && !scanner.keyAllowed then
    .error (.misread .keyNotAllowed scanner.mark none)
  let scanner ← (scanner.openBlock .blockMapping scanner.mark scanner.waiting.length).dismiss
  .ok { scanner.take .key 1 with keyAllowed := !scanner.inFlow }

/-- The mark before a value.  If there is a candidate, it turns out to be a key, and may open a
block. -/
def readValue (scanner : Scanner) : Step :=
  match scanner.candidate with
  | some candidate =>
    let before := candidate.number - scanner.released
    let opened :=
      (scanner.insert before .key candidate.mark).openBlock .blockMapping candidate.mark before
    .ok { opened.take .value 1 with candidate := none, keyAllowed := false }
  | none => do
    if !scanner.inFlow && !scanner.keyAllowed then
      .error (.misread .valueNotAllowed scanner.mark none)
    let opened := scanner.openBlock .blockMapping scanner.mark scanner.waiting.length
    .ok { opened.take .value 1 with keyAllowed := !scanner.inFlow }

/-- A scalar; behind one that ends on another line a key is allowed. -/
def readScalar (scanner : Scanner) (plain : Bool) (reading : ScalarReading) : Step := do
  let scanner ← scanner.nominate
  let (cs, cursor, crossed) ← reading
  .ok { scanner.put (.scalar plain (String.ofList cs)) scanner.mark cursor.mark with
    cursor := cursor
    keyAllowed := crossed }

/-- A character that begins no plain scalar, unless it is one of `-?:` with more behind. -/
def isIndicator (c : Char) : Bool :=
  "-?:,[]\x7b\x7d#&*!|>'\"%@`".toList.contains c

/-- Whether a plain scalar begins here. -/
def startsPlain (flow : Bool) : List Char → Bool
  | [] => false
  | c :: rest =>
    !(isIndicator c || isBlank c) || (c = '-' && !rest.head?.any isBlank)
      || (!flow && (c = '?' || c = ':') && !startsBlank rest)

/-- The token at the cursor. -/
def readToken (scanner : Scanner) : Step :=
  match scanner.cursor.rest with
  | [] => scanner.readEnd
  | c :: rest =>
    let mark := scanner.mark
    if isDocumentMark '-' mark (c :: rest) then scanner.readDocumentMark .documentStart
    else if isDocumentMark '.' mark (c :: rest) then scanner.readDocumentMark .documentEnd
    else if c = '[' then scanner.readOpening .flowSequence
    else if c = '\x7b' then scanner.readOpening .flowMapping
    else if c = ']' then scanner.readClosing .flowSequenceEnd
    else if c = '\x7d' then scanner.readClosing .flowMappingEnd
    else if c = ',' then scanner.readComma
    else if c = '-' && startsBlank rest then scanner.readItem
    else if c = '?' && (scanner.inFlow || startsBlank rest) then scanner.readKey
    else if c = ':' && (scanner.inFlow || startsBlank rest) then scanner.readValue
    else if c = '\'' then
      scanner.readScalar false (singleQuoted mark .none (mark.right 1) rest)
    else if c = '"' then
      scanner.readScalar false (doubleQuoted mark 0 .none (mark.right 1) rest)
    else if startsPlain scanner.inFlow (c :: rest) then
      scanner.readScalar true
        (plainScalar scanner.inFlow (scanner.indent + 1) mark .none mark (c :: rest))
    else .error (.misread .cannotStart mark (some (.nextToken, mark)))

/-- The scanner behind the next token.  The blocks that end before it are closed. -/
def next (scanner : Scanner) : Step := do
  let (cursor, crossed) := scanner.cursor.skipBlanks scanner.inFlow (!scanner.keyAllowed)
  let scanner ← { scanner with
    cursor := cursor
    keyAllowed := scanner.keyAllowed || (crossed && !scanner.inFlow) }.settle
  (← (scanner.closeBlocks cursor.mark.column).readToken).settle

/-- The number of tokens in front that are no candidates. -/
def ready (scanner : Scanner) : Nat :=
  ((scanner.candidate :: scanner.outer).filterMap id).foldl
    (fun count candidate => min count (candidate.number - scanner.released))
    scanner.waiting.length

/-- The scanner without some tokens in front. -/
def release (scanner : Scanner) (count : Nat) : Scanner :=
  { scanner with
    released := scanner.released + count
    waiting := scanner.waiting.drop count }

/-- The tokens from the cursor on.  Every token takes up a character, up to the end of the
text. -/
def tokens (scanner : Scanner) : List Token :=
  match scanner.next with
  | .error fault => [⟨.fault fault, scanner.mark, scanner.mark⟩]
  | .ok next =>
    if next.cursor.rest.length < scanner.cursor.rest.length then
      next.waiting.take next.ready ++ tokens (next.release next.ready)
    else next.waiting
termination_by scanner.cursor.rest.length

end Scanner

/-- The tokens of a text. -/
def Token.ofText (text : String) : List Token :=
  match textChars text with
  | .ok cs => Scanner.tokens { cursor := ⟨cs, .zero⟩ }
  | .error fault => [⟨.fault fault, .zero, .zero⟩]

end LinkedQuery.Yaml
