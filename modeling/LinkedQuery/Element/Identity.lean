import LinkedQuery.Element.Parts

/-!
# Identities

An `Identity` is what the `@id` entry of an object makes of the object: the placeholder for a
name to be found, an IRI, or nothing usable, for a reason that a warning tells.
-/

namespace LinkedQuery

/-- What an object is called by its `@id` entry. -/
inductive Identity where
  | placeholder
  | iri (value : String)
  | unusable (notice : Notice)
deriving DecidableEq, Repr

/-- The identity that a value gives; references stand under the base. -/
def Context.identity (context : Context) (value : Json) : Identity :=
  if value.isPlaceholder then .placeholder
  else
    match value.string? with
    | some text =>
      match context.validIri? text false with
      | some iri => .iri iri
      | none => .unusable .unusableId
    | none => .unusable .idNotString

/-- The name of an object in the graph: its IRI, or else the variable that it binds. -/
def Identity.name (identity : Option Identity) (target : Variable) : Name :=
  match identity with
  | some (.iri value) => .iri value
  | _ => .var target

end LinkedQuery
