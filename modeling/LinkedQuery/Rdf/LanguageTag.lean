import LinkedQuery.Iri.Components

/-!
# Language tags

`LanguageTag.normalize?` lowers a tag to small letters and checks its form.  A tag is one of the
registered irregular tags, a private tag behind `x-`, or a language followed by its optional
parts in a fixed order: extended languages, script, region, variants, extensions and private
subtags.  The order is kept by a `Stage`, which each subtag moves on.
-/

namespace LinkedQuery.LanguageTag

/-- Tags that are registered as they are, whatever their form. -/
def irregularTags : List String :=
  ["art-lojban", "cel-gaulish", "en-gb-oed", "i-ami", "i-bnn", "i-default", "i-enochian", "i-hak",
    "i-klingon", "i-lux", "i-mingo", "i-navajo", "i-pwn", "i-tao", "i-tay", "i-tsu", "no-bok",
    "no-nyn", "sgn-be-fr", "sgn-be-nl", "sgn-ch-de", "zh-guoyu", "zh-hakka", "zh-min",
    "zh-min-nan", "zh-xiang"]

/-- How much of a tag has been read. -/
inductive Stage where
  /-- A short language, which so many extended languages follow. -/
  | shortLanguage (extended : Nat)
  /-- A language that no extended language may follow. -/
  | language
  | script
  /-- A region or a variant. -/
  | region
  /-- An extension; `started` when its first subtag has yet to come. -/
  | extension (started : Bool)
  /-- Private subtags; `started` when the first has yet to come. -/
  | privateUse (started : Bool)
deriving DecidableEq, Repr

/-- A letter or digit of the ASCII range. -/
def isAlphanumeric (c : Char) : Bool :=
  Iri.isLetter c || Iri.isDigit c

/-- Whether a subtag has the form of a script. -/
def isScript (subtag : List Char) : Bool :=
  subtag.length = 4 && subtag.all Iri.isLetter

/-- Whether a subtag has the form of a region. -/
def isRegion (subtag : List Char) : Bool :=
  (subtag.length = 2 && subtag.all Iri.isLetter) || (subtag.length = 3 && subtag.all Iri.isDigit)

/-- Whether a subtag has the form of a variant. -/
def isVariant (subtag : List Char) : Bool :=
  subtag.all isAlphanumeric &&
    match subtag.head? with
    | some c => (5 ≤ subtag.length && Iri.isLetter c) || (4 ≤ subtag.length && Iri.isDigit c)
    | none => false

/-- The stage behind a region or variant, if the subtag is one that may stand here. -/
def afterRegion? (region : Bool) (subtag : List Char) : Option Stage :=
  if (region && isRegion subtag) || isVariant subtag then some .region else none

/-- The stage behind a script, a region or a variant. -/
def afterScript? (subtag : List Char) : Option Stage :=
  if isScript subtag then some .script else afterRegion? true subtag

/-- The stage behind a subtag of one character: private subtags or an extension begin. -/
def afterSingleton? : Stage → (subtag : List Char) → Option Stage
  | .extension true, _ => none
  | _, ['x'] => some (.privateUse true)
  | _, _ => some (.extension true)

/-- The stage behind one more subtag, if the subtag may stand there. -/
def next? (stage : Stage) (subtag : List Char) : Option Stage :=
  if subtag.isEmpty || 8 < subtag.length || !subtag.all isAlphanumeric then none
  else
    match stage with
    | .privateUse _ => some (.privateUse false)
    | stage =>
      if subtag.length = 1 then afterSingleton? stage subtag
      else
        match stage with
        | .shortLanguage extended =>
          if subtag.length = 3 && subtag.all Iri.isLetter then
            if extended < 3 then some (.shortLanguage (extended + 1)) else none
          else afterScript? subtag
        | .language => afterScript? subtag
        | .script => afterRegion? true subtag
        | .region => afterRegion? false subtag
        | .extension _ => some (.extension false)
        | .privateUse _ => some (.privateUse false)

/-- The stage behind the first subtag, a language of two to eight letters. -/
def start? (subtag : List Char) : Option Stage :=
  if subtag.length < 2 || 8 < subtag.length || !subtag.all Iri.isLetter then none
  else if subtag.length < 4 then some (.shortLanguage 0)
  else some .language

/-- Whether a tag may end at a stage. -/
def Stage.isComplete : Stage → Bool
  | .extension started => !started
  | .privateUse started => !started
  | _ => true

/-- Whether subtags form a tag. -/
def isRegular : List (List Char) → Bool
  | [] => false
  | language :: subtags =>
    match (start? language).bind fun stage => subtags.foldlM next? stage with
    | some stage => stage.isComplete
    | none => false

/-- Whether subtags form a private tag. -/
def isPrivate : List (List Char) → Bool
  | lead :: subtags =>
    lead == ['x'] && !subtags.isEmpty
      && subtags.all fun subtag =>
        !subtag.isEmpty && subtag.length ≤ 8 && subtag.all isAlphanumeric
  | [] => false

/-- The tag in small letters, if it is well formed. -/
def normalize? (tag : String) : Option String :=
  let lower := tag.toList.map Char.toLower
  let subtags := lower.splitOn '-'
  let normal := String.ofList lower
  if irregularTags.contains normal || isPrivate subtags || isRegular subtags then some normal
  else none

end LinkedQuery.LanguageTag
