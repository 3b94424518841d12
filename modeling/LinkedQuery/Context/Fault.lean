import LinkedQuery.Json.Text

/-!
# Context faults

A `ContextFault` is a reason for which a context cannot be processed, and `ContextFault.message` is
its text.
-/

namespace LinkedQuery

/-- Why a context cannot be processed. -/
inductive ContextFault where
  /-- A context that is a number or a truth value. -/
  | notContext (found : Json)
  /-- A loaded document without a context. -/
  | missingContext (iri : String)
  | relativeBase (reference : String)
  | baseNotString (found : Json)
  | vocabNotString (found : Json)
  | invalidTermDefinition (term : String)
  | invalidIriMapping (term : String)
  | cyclicIriMapping (term : String)
  | keywordRedefinition (term : String)
  | invalidContainer (found : String)
  | invalidVersion (found : Json)
  | remoteContextsDisabled (iri : String)
  | loadingFailed (iri reason : String)
  | recursionLimit (iri : String)
  | unsupported (feature : String)
deriving Repr

namespace ContextFault

/-- The text of a fault. -/
def message : ContextFault → String
  | .notContext found =>
    "Invalid context: context must be null, a string, an array or an object, got " ++ found.text
  | .missingContext iri => "Invalid context: " ++ iri ++ " has no @context entry"
  | .relativeBase reference =>
    "Invalid context: relative @base " ++ reference ++ " without a base IRI"
  | .baseNotString found => "Invalid context: @base must be a string or null, got " ++ found.text
  | .vocabNotString found => "Invalid context: @vocab must be a string or null, got " ++ found.text
  | .invalidTermDefinition term => "Invalid term definition for '" ++ term ++ "'"
  | .invalidIriMapping term => "Invalid IRI mapping for term '" ++ term ++ "'"
  | .cyclicIriMapping term => "Cyclic IRI mapping for term '" ++ term ++ "'"
  | .keywordRedefinition term => "Keywords cannot be redefined: " ++ term
  | .invalidContainer found => "Invalid @container value: " ++ found
  | .invalidVersion found => "Invalid @version value: " ++ found.text
  | .remoteContextsDisabled iri => "Remote contexts are disabled: " ++ iri
  | .loadingFailed iri reason => "Failed to load remote context " ++ iri ++ ": " ++ reason
  | .recursionLimit iri => "Context recursion limit exceeded while loading " ++ iri
  | .unsupported feature => "Unsupported context feature: " ++ feature

end ContextFault

end LinkedQuery
