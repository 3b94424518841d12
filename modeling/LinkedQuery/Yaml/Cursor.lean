import LinkedQuery.Yaml.Fault

/-!
# Moving through YAML text

A text is read as the list of its characters with line breaks made equal, `textChars`.  A `Cursor`
is what is left of it, with its place, and `Cursor.skipBlanks` moves it to the next token, over
blanks, line breaks and comments.
-/

namespace LinkedQuery.Yaml

/-- Whether a character may stand in a text. -/
def isAllowed (c : Char) : Bool :=
  c = '\t' || c = '\n' || c = '\r' || c = '\u0085' || (' ' ≤ c && c ≤ '~')
    || ('\u00a0' ≤ c && c != '\ufffe' && c != '\uffff')

/-- The number of bytes before the first character that may not stand in a text. -/
def controlPosition? (bytes : Nat) : List Char → Option Nat
  | [] => none
  | c :: rest =>
    if isAllowed c then controlPosition? (bytes + c.utf8Size) rest else some bytes

/-- The same lines, with one character at the end of each: a line feed, unless the line ends in a
separator that is kept in scalars. -/
def equalBreaks : List Char → List Char
  | [] => []
  | '\r' :: '\n' :: rest => '\n' :: equalBreaks rest
  | c :: rest => (if c = '\r' || c = '\u0085' then '\n' else c) :: equalBreaks rest

/-- The characters of a text behind its byte order mark, or its first fault. -/
def textChars (text : String) : Except Fault (List Char) :=
  let (bytes, cs) :=
    match text.toList with
    | '\ufeff' :: rest => ('\ufeff'.utf8Size, rest)
    | cs => (0, cs)
  match controlPosition? bytes cs with
  | some position => .error (.controlCharacter position)
  | none => .ok (equalBreaks cs)

/-- A character that ends a line. -/
def isBreak (c : Char) : Bool :=
  c = '\n' || c = '\u2028' || c = '\u2029'

/-- A blank within a line. -/
def isBlank (c : Char) : Bool :=
  c = ' ' || c = '\t'

/-- Whether some characters begin with a blank or a line break, or are none. -/
def startsBlank : List Char → Bool
  | [] => true
  | c :: _ => isBlank c || isBreak c

/-- The place behind a character. -/
def Mark.after (mark : Mark) (c : Char) : Mark :=
  if isBreak c then mark.nextLine else mark.pass c.utf8Size

/-- Whether three equal marks stand alone at the start of a line. -/
def isDocumentMark (c : Char) (mark : Mark) (cs : List Char) : Bool :=
  mark.column = 0 && [c, c, c].isPrefixOf cs && startsBlank (cs.drop 3)

/-- Whether a line begins that starts or ends a document. -/
def isDocumentLine (mark : Mark) (cs : List Char) : Bool :=
  isDocumentMark '-' mark cs || isDocumentMark '.' mark cs

/-- The characters left of a text, and where they stand. -/
structure Cursor where
  rest : List Char
  mark : Mark

namespace Cursor

/-- The cursor at the next token, and whether a line ends before it.  In a block, tabs are blanks
only where they do not indent; in flow collections they always are.  A byte order mark may begin
a line. -/
def skipFrom (flow : Bool) : (tabs comment crossed : Bool) → Mark → List Char → Cursor × Bool
  | _, _, crossed, mark, [] => (⟨[], mark⟩, crossed)
  | tabs, comment, crossed, mark, c :: rest =>
    let after := mark.after c
    if isBreak c then skipFrom flow flow false true after rest
    else if comment || c = ' ' || (c = '\t' && tabs) || (c = '\ufeff' && mark.column = 0) then
      skipFrom flow tabs comment crossed after rest
    else if c = '#' then skipFrom flow tabs true crossed after rest
    else (⟨c :: rest, mark⟩, crossed)

/-- The cursor at the next token, and whether a line ends before it. -/
def skipBlanks (flow tabs : Bool) (cursor : Cursor) : Cursor × Bool :=
  skipFrom flow (flow || tabs) false false cursor.mark cursor.rest

end Cursor

end LinkedQuery.Yaml
