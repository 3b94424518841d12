import LinkedQuery.Element.Parts

/-!
# Items of arrays

The items of an array are taken to be alike, so the first one stands for all: `readItems` reads it
in the frame of the array and makes a template for every binding of the array's variable.
-/

namespace LinkedQuery

/-- The variable to select for the items of an array; constants leave it unbound. -/
def itemProjections (target : Variable) (item : Match) : List Variable :=
  if item.term = .var target then target :: item.projections else item.projections

/-- Reads the items of an array by a production. -/
def readItems (items : List Element) (production : Production) : Reading := fun frame =>
  match items with
  | [] => .ok { term := .var frame.target, template := .value (.array []) }
  | first :: _ => do
    let item ← first.read production frame
    .ok { item with
      template := .array frame.target item.template
      projections := itemProjections frame.target item
      warnings := nestAll (.index 0) item.warnings }

/-- Reads an array of node objects. -/
def NodeObjects.read (parts : Parts Element) : Reading := fun frame =>
  match parts.value with
  | .array items =>
    match items.find? fun item => !item.isObject with
    | some item => .error (.notNodeObject item.kind)
    | none => readItems parts.items .nodeObject frame
  | _ => .error (parts.unexpected .nodeObjects)

end LinkedQuery
