import LinkedQuery.Text.CharWidth

/-!
# Display width of text

How many columns a text takes up on a screen of equal cells.  That is the sum of the columns of its
characters, but for sequences that are drawn as one: pictures that are joined or modified, and
the ligatures of some scripts.  A text is therefore walked through from its end, with what the
part behind begins with, its `Start`, in hand.
-/

namespace LinkedQuery.Width

/-- Letters that join with letters before them. -/
inductive Joining where
  | hebrewLamed
  | khmerLetter
  | bugineseYa
  /-- The letter before behind its vowel. -/
  | bugineseVowel
  | tifinaghLetter
  /-- A letter behind the mark that joins it. -/
  | tifinaghMark
  | lisuTone
  | turkicI
  | kiratE
  | kiratAi
deriving DecidableEq, Repr

/-- What a text begins with, so far as it counts for the characters before. -/
inductive Start where
  | other
  | lineFeed
  | arabicAlef
  /-- A letter, perhaps behind a joiner. -/
  | letter (joining : Joining) (isJoined : Bool)
  | picture
  | skin
  /-- A letter of a flag, or several of them. -/
  | flagLetter
  | flagLetters
  /-- A joiner before a picture. -/
  | joined
  /-- A joiner before a picture, and the frame of a key before it. -/
  | joinedFrame
  /-- A joiner before a picture, and letters of flags before it. -/
  | joinedFlag (letters : Nat)
  /-- A joiner before a picture, and the end of a tag before it: so many letters, and digits
  before those. -/
  | joinedTag (letters digits : Nat)
deriving DecidableEq, Repr

/-- How the character before a selector is to be drawn. -/
inductive Selector where
  | picture
  | text
deriving DecidableEq, Repr

/-- The selector that a character is. -/
def Selector.ofChar? (c : Char) : Option Selector :=
  if c = '\ufe0f' then some .picture else if c = '\ufe0e' then some .text else none

/-- What comes behind a character: a selector, or else the start of the rest. -/
structure Behind where
  selector : Option Selector := none
  start : Start := .other

/-- Whether a code point lies between two others. -/
def isBetween (first last : Nat) (c : Char) : Bool :=
  first ≤ c.toNat && c.toNat ≤ last

/-- A letter of a flag. -/
def isFlagLetter (c : Char) : Bool :=
  isBetween 0x1F1E6 0x1F1FF c

/-- A colour of skin. -/
def isSkin (c : Char) : Bool :=
  isBetween 0x1F3FB 0x1F3FF c

/-- A consonant of Tifinagh. -/
def isTifinagh (c : Char) : Bool :=
  isBetween 0x2D31 0x2D65 c || c = '\u2d6f'

/-- The Khmer letters that can be set under another one. -/
def khmerLetters : CharRanges :=
  [(0x1780, 0x1782), (0x1784, 0x1787), (0x1789, 0x178C), (0x178E, 0x1793), (0x1795, 0x1798),
    (0x179B, 0x179D), (0x17A0, 0x17A0), (0x17A2, 0x17A2), (0x17A7, 0x17A7), (0x17AB, 0x17AC),
    (0x17AF, 0x17AF)]

/-- The Arabic letters of the group of alef. -/
def alefs : CharRanges :=
  [(0x622, 0x623), (0x625, 0x625), (0x627, 0x627), (0x671, 0x673), (0x675, 0x675),
    (0x773, 0x774), (0x870, 0x882)]

/-- The Arabic letters of the group of lam. -/
def lams : CharRanges :=
  [(0x644, 0x644), (0x6B5, 0x6B8), (0x76A, 0x76A), (0x8A6, 0x8A6), (0x8C7, 0x8C7)]

/-- Marks that do not come between the letters of a ligature, nor does the joiner. -/
def ignoredMarks : CharRanges :=
  [(0x34F, 0x34F), (0x17B4, 0x17B5), (0x180B, 0x180D), (0x180F, 0x180F), (0x200D, 0x200D),
    (0xFE00, 0xFE0F), (0xE0100, 0xE01EF)]

/-- How a letter joins with letters before it. -/
def Joining.ofChar? (c : Char) : Option Joining :=
  if c = '\u05dc' then some .hebrewLamed
  else if khmerLetters.contains c then some .khmerLetter
  else if c = '\u1a10' then some .bugineseYa
  else if isTifinagh c then some .tifinaghLetter
  else if isBetween 0xA4FC 0xA4FD c then some .lisuTone
  else if c.toNat = 0x10C03 then some .turkicI
  else if c.toNat = 0x16D67 then some .kiratE
  else none

/-- What a text begins with whose first character joins with none behind it. -/
def Start.ofChar (c : Char) : Start :=
  if isFlagLetter c then .flagLetter
  else if isSkin c then .skin
  else if pictureChars.contains c then .picture
  else if alefs.contains c then .arabicAlef
  else
    match Joining.ofChar? c with
    | some joining => .letter joining false
    | none => .other

/-- The columns that a letter adds in front of one that it joins with, and what the text begins
with then. -/
def ligature? (joining : Joining) (isJoined : Bool) (c : Char) : Option (Int × Start) :=
  match joining with
  | .hebrewLamed => if isJoined && c = '\u05d0' then some (0, .other) else none
  | .khmerLetter => if c = '\u17d2' then some (-1, .other) else none
  | .bugineseYa =>
    if isJoined && c = '\u1a17' then some (0, .letter .bugineseVowel false) else none
  | .bugineseVowel => if c = '\u1a15' then some (0, .other) else none
  | .tifinaghLetter =>
    if c = '\u2d7f' then some (1, .letter .tifinaghMark false)
    else if isJoined && isTifinagh c then some (0, .other)
    else none
  | .tifinaghMark => if isTifinagh c then some (-1, .other) else none
  | .lisuTone => if isBetween 0xA4F8 0xA4FB c then some (0, .other) else none
  | .turkicI => if isJoined && c.toNat = 0x10C32 then some (0, .other) else none
  | .kiratE =>
    if c.toNat = 0x16D63 || c.toNat = 0x16D69 then some (0, .other)
    else if c.toNat = 0x16D67 then some (0, .letter .kiratAi false)
    else if c.toNat = 0x16D68 then some (1, .letter .kiratE false)
    else none
  | .kiratAi => if c.toNat = 0x16D63 then some (0, .other) else none

/-- The columns that a character adds in front of a joiner before a picture, if it belongs to the
same picture. -/
def joinedPicture? (c : Char) : Option (Int × Start) :=
  if c = '\u20e3' then some (0, .joinedFrame)
  else if isFlagLetter c then some (1, .joinedFlag 1)
  else if isSkin c then some (0, .skin)
  else if c.toNat = 0xE007F then some (0, .joinedTag 0 0)
  else if pictureChars.contains c then some (0, .picture)
  else none

/-- The columns that a character adds in front of the end of a tag, if it belongs to the tag or is
the flag before it. -/
def joinedTag? (letters digits : Nat) (c : Char) : Option (Int × Start) :=
  if isBetween 0xE0061 0xE007A c && digits = 0 && letters < 6 then
    some (0, .joinedTag (letters + 1) digits)
  else if isBetween 0xE0030 0xE0039 c && letters ≤ 4 && digits < 3 then
    some (0, .joinedTag letters (digits + 1))
  else if c.toNat = 0x1F3F4 && (digits = 3 || (digits = 0 && 3 ≤ letters)) then
    some (0, .picture)
  else none

/-- The columns that a character adds, if they are not its own, and what the text begins with
then. -/
def joined? (start : Start) (c : Char) : Option (Int × Start) :=
  match start with
  | .other => none
  | .lineFeed => if c = '\r' then some (0, .other) else none
  | .arabicAlef =>
    if lams.contains c then some (0, .other)
    else if isTransparent c then some (0, .arabicAlef)
    else none
  | .letter joining isJoined =>
    if ignoredMarks.contains c then some (0, .letter joining (isJoined || c = '\u200d'))
    else ligature? joining isJoined c
  | .picture => if c = '\u200d' then some (0, .joined) else none
  | .skin =>
    if skinChars.contains c then some (0, .picture)
    else if c = '\u200d' then some (0, .joined)
    else none
  | .flagLetter => if isFlagLetter c then some (1, .flagLetters) else none
  | .flagLetters =>
    if isFlagLetter c then some (1, .flagLetters)
    else if c = '\u200d' then some (0, .joined)
    else none
  | .joined => joinedPicture? c
  | .joinedFrame => none
  | .joinedFlag letters =>
    if isFlagLetter c then some (if letters % 2 = 1 then -1 else 3, .joinedFlag (letters + 1))
    else if c = '\u200d' && 1 < letters then some (0, .joined)
    else none
  | .joinedTag letters digits => joinedTag? letters digits c

/-- The start that a selector leaves behind itself. -/
def Start.keepsSelector : Start → Start
  | .joined => .joined
  | .joinedFrame => .joinedFrame
  | .letter joining isJoined => .letter joining isJoined
  | _ => .other

/-- The columns that a character adds in front of a selector, if it is drawn as that one asks. -/
def selected? (selector : Selector) (start : Start) (c : Char) : Option (Int × Start) :=
  match selector with
  | .picture =>
    if start = .joinedFrame then
      if c.isDigit || c = '#' || c = '*' then some (0, .picture) else none
    else if picturableChars.contains c || textableChars.contains c then
      some (if start = .joined then 0 else 2, .picture)
    else none
  | .text => if textableChars.contains c then some (1, .other) else none

/-- The columns that a character adds in front of a text, and what the text begins with then. -/
def add (c : Char) (behind : Behind) : Int × Behind :=
  match behind.selector.bind (selected? · behind.start c) with
  | some (columns, start) => (columns, { start := start })
  | none =>
    if c = '\n' then (1, { start := .lineFeed })
    else
      match Selector.ofChar? c with
      | some selector => (0, { selector := some selector, start := behind.start.keepsSelector })
      | none =>
        match joined? behind.start c with
        | some (columns, start) => (columns, { start := start })
        | none => (ofChar c, { start := .ofChar c })

/-- The columns of a text. -/
def ofChars (cs : List Char) : Nat :=
  (cs.foldr (fun c (behind : Int × Behind) =>
    let (columns, start) := add c behind.2
    (behind.1 + columns, start)) (0, {})).1.toNat

end LinkedQuery.Width
