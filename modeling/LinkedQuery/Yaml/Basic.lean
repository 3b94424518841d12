import LinkedQuery.Yaml.Fault

/-!
# YAML values

`Yaml` is a value of the part of YAML that settings are written in: block and flow collections
and scalars, plain or quoted, each with its place in the text.  A text that breaks off with a
fault still gives the values before it, and `Yaml.broken` stands where they end.
-/

namespace LinkedQuery

/-- A value with its place. -/
inductive Yaml where
  | scalar (plain : Bool) (text : String) (mark : Yaml.Mark)
  | sequence (items : List Yaml) (mark : Yaml.Mark)
  | mapping (entries : List (Yaml × Yaml)) (mark : Yaml.Mark)
  | broken (fault : Yaml.Fault)
deriving Repr

namespace Yaml

/-- The value of a place where none is written. -/
def absent (mark : Mark) : Yaml :=
  .scalar true "" mark

/-- Where a value begins. -/
def mark : Yaml → Mark
  | .scalar _ _ mark => mark
  | .sequence _ mark => mark
  | .mapping _ mark => mark
  | .broken _ => .zero

/-- Whether a value is the one of a place where none is written. -/
def isAbsent : Yaml → Bool
  | .scalar plain text _ => plain && text.isEmpty
  | _ => false

end Yaml

end LinkedQuery
