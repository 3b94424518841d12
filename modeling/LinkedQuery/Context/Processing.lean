import LinkedQuery.Context.Creation
import LinkedQuery.Context.Remote

/-!
# Processing contexts

`Context.process` puts a local context on top of a context.  A local context is null, which starts
afresh, a reference to a document, an array, whose items follow each other, or an object, which
sets the base and the vocabulary and declares terms.  Documents refer to further documents, up to
a depth of sixteen.
-/

namespace LinkedQuery

namespace Context

/-- The version that a context object may name. -/
def isSupportedVersion : Json → Bool
  | .number (.double value) => Double.nearest? false 11 10 == some value
  | _ => false

/-- The base under an object's entry for it.  A relative base needs a base to stand under. -/
def withBase (context : Context) : Option Json → Except ContextFault Context
  | none => .ok context
  | some .null => .ok { context with base := none }
  | some (.string reference) =>
    if Iri.hasScheme reference then .ok { context with base := some reference }
    else
      match context.base with
      | some base => .ok { context with base := Iri.resolve? base reference }
      | none => .error (.relativeBase reference)
  | some other => .error (.baseNotString other)

/-- The vocabulary that a text names: the base for no text, an IRI by itself, and otherwise a name
of the vocabulary so far or a reference. -/
def vocabOf (context : Context) (value : String) : Option String :=
  if value = "" then context.base
  else if (Iri.compact? value).isSome || Iri.hasScheme value then
    some ((context.expand? value true).getD value)
  else
    match context.vocab, context.base with
    | some vocab, _ => some (vocab ++ value)
    | none, some base => Iri.resolve? base value
    | none, none => some value

/-- The vocabulary under an object's entry for it. -/
def withVocab (context : Context) : Option Json → Except ContextFault Context
  | none => .ok context
  | some .null => .ok { context with vocab := none }
  | some (.string value) => .ok { context with vocab := context.vocabOf value }
  | some other => .error (.vocabNotString other)

/-- The context under the entries of an object that declare no terms. -/
def withKeywords (context : Context) (declared : Entries Json) : Except ContextFault Context := do
  match declared.lookup Keyword.version.text with
  | some version => if isSupportedVersion version then pure () else throw (.invalidVersion version)
  | none => pure ()
  if (declared.lookup Keyword.importing.text).isSome then
    throw (.unsupported Keyword.importing.text)
  let based ← context.withBase (declared.lookup Keyword.base.text)
  based.withVocab (declared.lookup Keyword.vocab.text)

/-- The context under an object. -/
def withObject (context : Context) (declared : Entries Json) : Except ContextFault Context := do
  (← context.withKeywords declared).declare declared

/-- The context under a reference to a document. -/
abbrev Follower := Context → String → Except ContextFault Context

mutual

/-- The context under a local context, given the way to follow references. -/
def processWith (follow : Follower) (context : Context) : Json → Except ContextFault Context
  | .null => .ok {}
  | .string reference => follow context reference
  | .array items => processEach follow context items
  | .object declared => context.withObject declared
  | .boolean value => .error (.notContext (.boolean value))
  | .number value => .error (.notContext (.number value))

/-- The context under local contexts that follow each other. -/
def processEach (follow : Follower) (context : Context) :
    List Json → Except ContextFault Context
  | [] => .ok context
  | item :: items =>
    match processWith follow context item with
    | .error fault => .error fault
    | .ok context => processEach follow context items

end

/-- A reference as an IRI, if the base makes one of it. -/
def referenceIri (context : Context) (reference : String) : String :=
  match context.base with
  | some base => (Iri.resolve? base reference).getD reference
  | none => reference

/-- Follows references to documents that refer to others up to a depth. -/
def follow (loader : Loader) : (depth : Nat) → Follower
  | 0, _, reference => .error (.recursionLimit reference)
  | depth + 1, context, reference => do
    let iri := context.referenceIri reference
    let document ← loader iri
    match document.entry? Keyword.context.text with
    | some remote => processWith (follow loader depth) context remote
    | none => .error (.missingContext iri)

/-- How deep documents may refer to others. -/
def greatestDepth : Nat := 16

/-- The context under a local context. -/
def process (context : Context) (loader : Loader) (declared : Json) : Except ContextFault Context :=
  processWith (follow loader greatestDepth) context declared

/-- The context under a local context that may be missing. -/
def enter (context : Context) (loader : Loader) : Option Json → Except ContextFault Context
  | none => .ok context
  | some declared => context.process loader declared

end Context

end LinkedQuery
