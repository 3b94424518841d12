import LinkedQuery.Yaml.Mismatch

/-!
# JSON values in YAML

`Yaml.json` is the JSON value that a YAML value stands for, if its keys are all scalars, its
numbers are not too great, and its collections are not nested too deep.
-/

namespace LinkedQuery.Yaml

mutual

/-- The JSON value of a value at a path.  Collections may be nested `depth` deep. -/
def json (depth : Nat) (path : Path) : Yaml → Except Mismatch Json
  | .broken fault => .error (.broken fault)
  | .scalar false text _ => .ok (.string text)
  | .scalar true text mark =>
    match (Plain.ofText text).json? with
    | some value => .ok value
    | none => .error (.outOfRange path mark)
  | .sequence items mark =>
    match depth with
    | 0 => .error (.tooDeep mark)
    | depth + 1 => (itemsJson depth path 0 items).map .array
  | .mapping entries mark =>
    match depth with
    | 0 => .error (.tooDeep mark)
    | depth + 1 =>
      (entriesJson depth path .anyKey entries).map fun pairs => .object (Entries.ofList pairs)

/-- The JSON values of items, the first of which has the number told. -/
def itemsJson (depth : Nat) (path : Path) (index : Nat) : List Yaml → Except Mismatch (List Json)
  | [] => .ok []
  | item :: items => do
    let value ← json depth (path ++ [.item index]) item
    .ok (value :: (← itemsJson depth path (index + 1) items))

/-- The JSON values of entries, with what is expected of the first key. -/
def entriesJson (depth : Nat) (path : Path) (expected : Expectation) :
    List (Yaml × Yaml) → Except Mismatch (List (String × Json))
  | [] => .ok []
  | (.scalar _ key _, value) :: entries => do
    let value ← json depth (path ++ [.key key]) value
    .ok ((key, value) :: (← entriesJson depth path .text entries))
  | (key, _) :: _ => .error (mismatch key expected path)

end

end LinkedQuery.Yaml
