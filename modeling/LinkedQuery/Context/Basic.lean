import LinkedQuery.Context.Keyword
import LinkedQuery.Iri.Resolution
import LinkedQuery.Warning

/-!
# Contexts

A `Context` gives keys and values of a document their meaning: a base, a vocabulary and the
`Definition`s of terms.  `Context.meaning` says what a key stands for, and `Context.expand?` gives
the IRI that a value stands for, either as a name of the vocabulary or as a reference.
-/

namespace LinkedQuery

/-- How the values of a term are grouped. -/
inductive Container where
  | list
  | set
  | graph
  /-- Values under keys of one kind. -/
  | map (kind : MapKind)
deriving DecidableEq, Repr

/-- What the strings among a term's values stand for. -/
inductive Coercion where
  /-- References to resources. -/
  | id
  /-- Names of the vocabulary. -/
  | vocab
  /-- JSON literals. -/
  | json
  /-- Literals of a datatype. -/
  | datatype (iri : String)
deriving DecidableEq, Repr

/-- The definition of a term.  Its IRI may be a keyword, for which the term is another word; it has
none if the term is declared to mean nothing. -/
structure Definition where
  iri : Option String := none
  reverse : Bool := false
  containers : List Container := []
  coercion : Option Coercion := none
  /-- The context for the values of the term. -/
  valueContext : Option Json := none
deriving Repr

/-- Whether a term declares a container. -/
def Definition.has (definition : Definition) (container : Container) : Bool :=
  definition.containers.contains container

/-- The kind of the first map that a term declares. -/
def Definition.mapKind? (definition : Definition) : Option MapKind :=
  definition.containers.findSome? fun
    | .map kind => some kind
    | _ => none

/-- What keys and values of a document mean. -/
structure Context where
  base : Option String := none
  vocab : Option String := none
  /-- The terms in the order of their definition. -/
  terms : Entries Definition := []
deriving Repr

/-- What a key of an object stands for. -/
inductive Meaning where
  | keyword (keyword : Keyword)
  | property (iri : String)
  /-- A property that leads from the value to the object. -/
  | reverse (iri : String)
  | unmapped
deriving DecidableEq, Repr

namespace Context

/-- The definition of a term. -/
def definition? (context : Context) (term : String) : Option Definition :=
  context.terms.lookup term

/-- The IRI of a term, unless the term stands for a keyword. -/
def termIri? (context : Context) (term : String) : Option String :=
  ((context.definition? term).bind (·.iri)).filter fun iri => !Keyword.isKeyword iri

/-- What a defined term stands for. -/
def definedMeaning (definition : Definition) : Meaning :=
  match definition.iri with
  | none => .unmapped
  | some iri =>
    match Keyword.ofText? iri with
    | some keyword => .keyword keyword
    | none => if definition.reverse then .reverse iri else .property iri

/-- What a key stands for that is neither a keyword nor a defined term. -/
def undefinedMeaning (context : Context) (key : String) : Meaning :=
  if key.toList.head? = some '@' then .unmapped
  else
    match Iri.compact? key with
    | some (lead, suffix) =>
      if lead = "_" then .unmapped
      else .property ((context.termIri? lead).elim key (· ++ suffix))
    | none =>
      if Iri.hasScheme key then .property key
      else context.vocab.elim .unmapped fun vocab => .property (vocab ++ key)

/-- What a key of an object stands for. -/
def meaning (context : Context) (key : String) : Meaning :=
  match Keyword.ofText? key with
  | some keyword => .keyword keyword
  | none =>
    match context.definition? key with
    | some definition => definedMeaning definition
    | none => context.undefinedMeaning key

/-- The IRI of a value that is no term: compact IRIs are written out, absolute ones stay, and
others are names of the vocabulary, if asked for, or references. -/
def expandReference? (context : Context) (value : String) (inVocab : Bool) : Option String :=
  match Iri.compact? value with
  | some (lead, suffix) => some ((context.termIri? lead).elim value (· ++ suffix))
  | none =>
    if Iri.hasScheme value then some value
    else
      match inVocab, context.vocab with
      | true, some vocab => some (vocab ++ value)
      | _, _ => context.base.bind fun base => Iri.resolve? base value

/-- The IRI that a value stands for.  Only names of the vocabulary may be terms; a term for a
keyword stands for no IRI. -/
def expand? (context : Context) (value : String) (inVocab : Bool) : Option String :=
  if Keyword.isKeyword value then none
  else
    match inVocab, (context.definition? value).bind (·.iri) with
    | true, some iri => if Keyword.isKeyword iri then none else some iri
    | _, _ => context.expandReference? value inVocab

/-- The first of some entries whose key stands for a keyword. -/
def entryFor? {α : Type} (context : Context) (entries : List (String × α)) (keyword : Keyword) :
    Option (String × α) :=
  entries.find? fun entry => context.meaning entry.1 == .keyword keyword

/-- The well-formed IRI that a value stands for. -/
def validIri? (context : Context) (value : String) (inVocab : Bool) : Option String :=
  (context.expand? value inVocab).filter Iri.isValid

end Context

end LinkedQuery
