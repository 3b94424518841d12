import LinkedQuery.Element.Items
import LinkedQuery.Element.Shape

/-!
# Documents and entry values

A document is a node object, an array of node objects, or an object with a top-level graph that
holds them.  The value of an entry is read by the production of its shape.  Both readings go on to
another reading of the same value, so they are given the others.
-/

namespace LinkedQuery

/-- The match of null, which has no meaning in a query yet. -/
def nullMatch (target : Variable) : Match where
  term := .var target
  template := .value .null
  warnings := [⟨.nullValue, []⟩]

/-- Reads the value of an entry. -/
def EntryValue.read (setup : Setup) (parts : Parts Element) (same : Production → Reading) :
    Reading := fun frame => do
  let context ← setup.enter frame.context parts.localContext?
  match context.shape parts.value with
  | .null => .ok (nullMatch frame.target)
  | .scalar => same .scalar frame
  | .graphObject => same .graphObject frame
  | .valueObject => same .valueObject frame
  | .listObject => same .listObject frame
  | .setObject => same .setObject frame
  | .nodeObject => same .nodeObject frame
  | .array => readItems parts.items .entryValue frame

/-- Reads a set object, which has no match yet. -/
def SetObject.read (parts : Parts Element) : Reading := fun frame =>
  .ok { term := .var frame.target
        template := .value parts.value
        warnings := [⟨.setObject, []⟩] }

namespace TopLevelGraph

/-- The warnings about an entry beside the graph; only a local context belongs there. -/
def otherWarnings (key : String) : List Warning :=
  if key = Keyword.context.text then [] else [Warning.atKey .besideGraph key]

/-- The match of the graph's contents with the other entries of the object around them. -/
def surround (parts : Parts Element) (graphKey : String) (contents : Match) : Match :=
  { contents with
    template := parts.templateWith graphKey contents.template
    warnings := parts.entries.flatMap fun entry =>
      if entry.1 = graphKey then nestAll (.key entry.1) contents.warnings
      else otherWarnings entry.1 }

/-- Reads an object with a top-level graph. -/
def read (setup : Setup) (parts : Parts Element) : Reading := fun frame => do
  let context ← setup.enter frame.context parts.localContext?
  match context.entryFor? parts.entries .graph with
  | none => .error (parts.unexpected .topLevelGraph)
  | some (graphKey, graph) =>
    let inner : Frame := ⟨frame.target, context, none⟩
    let contents ←
      match graph.value with
      | .array _ => graph.read .nodeObjects inner
      | .object _ => graph.read .nodeObject inner
      | other => .error (.notGraph other.kind)
    .ok (surround parts graphKey contents)

end TopLevelGraph

/-- Reads a document. -/
def Document.read (setup : Setup) (parts : Parts Element) (same : Production → Reading) :
    Reading := fun frame =>
  match parts.value with
  | .object _ => do
    let context ← setup.enter frame.context parts.localContext?
    if (context.entryFor? parts.entries .graph).isSome then same .topLevelGraph frame
    else same .nodeObject frame
  | .array _ => same .nodeObjects frame
  | other => .error (.notDocument other.kind)

end LinkedQuery
