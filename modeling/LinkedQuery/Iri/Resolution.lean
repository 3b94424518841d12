import LinkedQuery.Iri.Components

/-!
# Resolving references

`Iri.resolve?` turns a reference into an IRI by taking the components it lacks from a base IRI.
Dots are removed from a path while it is copied segment by segment: `walk` keeps what has been
written so far, and at the end of each segment `step` takes a `.` or `..` back.
-/

namespace LinkedQuery.Iri

/-- A path up to its last slash; under an authority, at least a slash. -/
def cutAfterSlash (underAuthority : Bool) (path : List Char) : List Char :=
  let kept := (path.reverse.dropWhile (· != '/')).reverse
  if kept.isEmpty && underAuthority then ['/'] else kept

/-- What becomes of a written path at the end of a segment: the path without the dots of the
segment, or nothing if the segment is not made of dots. -/
def withoutDots? (underAuthority : Bool) (written : List Char) : Option (List Char) :=
  if ['/', '.', '.'].isSuffixOf written then
    some (cutAfterSlash underAuthority (written.take (written.length - 3)))
  else if ['/', '.'].isSuffixOf written || written == ['.'] then
    some (written.take (written.length - 1))
  else if written == ['.', '.'] then some []
  else none

/-- The end of a segment; `slash` is what to write behind a segment that is not made of dots.
Without an authority no segment may end in a path that begins with two slashes. -/
def step? (underAuthority : Bool) (written slash : List Char) : Option (List Char) :=
  let (kept, behind) :=
    match withoutDots? underAuthority written with
    | some shorter => (shorter, [])
    | none => (written, slash)
  if !underAuthority && ['/', '/'].isPrefixOf kept then none else some (kept ++ behind)

/-- Copies a path behind what is written already, and removes dots on the way. -/
def walk? (underAuthority : Bool) : (written path : List Char) → Option (List Char)
  | written, [] => step? underAuthority written []
  | written, c :: path =>
    if c = '/' then (step? underAuthority written ['/']).bind (walk? underAuthority · path)
    else walk? underAuthority (written ++ [c]) path

/-- A relative path must not have a colon in its first segment. -/
def startsWithoutColon (path : List Char) : Bool :=
  !(path.takeWhile (· != '/')).contains ':'

/-- The components of a reference over those of a base. -/
def resolveComponents? (base reference : Components) : Option Components :=
  let underAuthority := base.authority.isSome
  if reference.scheme.isSome then some reference
  else if reference.authority.isSome then some ⟨base.scheme, reference.authority, reference.path,
    reference.query, reference.fragment⟩
  else
    match reference.path with
    | [] =>
      match reference.query with
      | some query => some ⟨base.scheme, base.authority, base.path, some query, reference.fragment⟩
      | none => some ⟨base.scheme, base.authority, base.path, base.query, reference.fragment⟩
    | c :: rest =>
      let path? :=
        if c = '/' then walk? underAuthority ['/'] rest
        else if startsWithoutColon (c :: rest) then
          walk? underAuthority (cutAfterSlash underAuthority base.path) (c :: rest)
        else none
      path?.map fun path =>
        ⟨base.scheme, base.authority, path, reference.query, reference.fragment⟩

/-- The IRI that a reference stands for under a base, if both are well formed. -/
def resolve? (base reference : String) : Option String :=
  let parts := Components.ofList reference.toList
  if isValid base && parts.areAllowed then
    (resolveComponents? (Components.ofList base.toList) parts).map fun resolved =>
      String.ofList resolved.toList
  else none

end LinkedQuery.Iri
