import LinkedQuery.Context.Basic

/-!
# Shapes of values

`Context.shape` sorts the values of entries by the production that reads them.  Objects are told
apart by the keywords among their keys, in a fixed order of preference.
-/

namespace LinkedQuery

/-- The shape of an entry's value. -/
inductive Shape where
  | null
  | scalar
  | graphObject
  | valueObject
  | listObject
  | setObject
  | nodeObject
  | array
deriving DecidableEq, Repr

/-- The shape of an object with some entries. -/
def Context.objectShape {α : Type} (context : Context) (entries : List (String × α)) : Shape :=
  let has (keyword : Keyword) : Bool := (context.entryFor? entries keyword).isSome
  if has .graph then .graphObject
  else if has .value then .valueObject
  else if has .list then .listObject
  else if has .set then .setObject
  else .nodeObject

/-- The shape of a value. -/
def Context.shape (context : Context) : Json → Shape
  | .null => .null
  | .boolean _ => .scalar
  | .number _ => .scalar
  | .string _ => .scalar
  | .array _ => .array
  | .object entries => context.objectShape entries

end LinkedQuery
