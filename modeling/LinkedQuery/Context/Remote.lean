import LinkedQuery.Context.Fault
import LinkedQuery.Entries
import LinkedQuery.Url.Reader

/-!
# Remote documents

A `Loader` finds the document that a context refers to by its IRI.  `Loader.disabled` refuses all
of them, `Loader.ofDocuments` knows some documents and no others, and `Loader.fetching` would go
to the network for the others; here the network is never reached, so it fails there.
-/

namespace LinkedQuery

/-- Finds the document behind an IRI. -/
abbrev Loader := String → Except ContextFault Json

namespace Loader

/-- Refuses every document. -/
def disabled : Loader := fun iri => .error (.remoteContextsDisabled iri)

/-- Serves some documents. -/
def ofDocuments (documents : Entries Json) : Loader := fun iri =>
  match documents.lookup iri with
  | some document => .ok document
  | none => .error (.loadingFailed iri "document not registered")

/-- Why the document of an IRI is not fetched.  The address is named in its normal form, if the IRI
is one. -/
def fetchFailure (iri : String) : String :=
  match Url.ofText? iri with
  | some url =>
    (if url.isFetched then "error sending request" else "builder error")
      ++ " for url (" ++ url.anonymous.text ++ ")"
  | none => "builder error"

/-- Serves some documents and fetches the others. -/
def fetching (documents : Entries Json) : Loader := fun iri =>
  match documents.lookup iri with
  | some document => .ok document
  | none => .error (.loadingFailed iri (fetchFailure iri))

end Loader

end LinkedQuery
