import LinkedQuery.Entries
import LinkedQuery.Variable.Naming

/-!
# Segments of siblings

The `Siblings` are the segments of the entries of one object, no two of them alike.  The first
entry of a name is enrolled under the name itself, and later ones under the name with a number
behind.  A numbered name can be in use already; then it is numbered in turn, which makes it longer,
so the search ends as soon as it has passed all names in use.
-/

namespace LinkedQuery

/-- How often each segment in use has been asked for. -/
structure Siblings where
  counts : Entries Nat := []

namespace Siblings

/-- The names in use that are longer than a length. -/
def longerNames (siblings : Siblings) (length : Nat) : List String :=
  siblings.counts.names.filter fun name => length < name.length

/-- A name with a number behind. -/
def numbered (name : String) (number : Nat) : String :=
  name ++ "_" ++ number.repr

theorem length_lt_length_numbered (name : String) (number : Nat) :
  name.length < (numbered name number).length
  := by
  simp only [numbered, String.length_append]
  have : "_".length = 1 := rfl
  omega

theorem longerNames_insert {siblings : Siblings} {name : String} (h : name ∈ siblings.counts.names)
    (count length : Nat) :
  longerNames ⟨siblings.counts.insert name count⟩ length = siblings.longerNames length
  := by
  simp [longerNames, Entries.names_insert, h]

theorem length_longerNames_lt {siblings : Siblings} {name : String} {length : Nat}
    (used : name ∈ siblings.counts.names) (longer : length < name.length) :
  (siblings.longerNames name.length).length < (siblings.longerNames length).length
  := by
  have hsub : siblings.longerNames name.length
      = (siblings.longerNames length).filter fun other => name.length < other.length := by
    simp only [longerNames, List.filter_filter]
    apply List.filter_congr
    intro other _
    by_cases h : name.length < other.length <;> simp [h]
    omega
  rw [hsub, List.length_filter_lt_length_iff_exists]
  exact ⟨name, by simp [longerNames, used, longer], by simp⟩

/-- A segment for a name that is a segment itself. -/
def enrollSegment (siblings : Siblings) (name : String) : String × Siblings :=
  match known : siblings.counts.lookup name with
  | none => (name, ⟨siblings.counts.insert name 1⟩)
  | some count =>
    let counted : Siblings := ⟨siblings.counts.insert name (count + 1)⟩
    let candidate := numbered name (count + 1)
    if _used : candidate ∈ counted.counts.names then counted.enrollSegment candidate
    else (candidate, ⟨counted.counts.insert candidate 1⟩)
termination_by (siblings.longerNames name.length).length
decreasing_by
  rw [← longerNames_insert (Entries.mem_names_of_lookup known) (count + 1) name.length]
  exact length_longerNames_lt _used (length_lt_length_numbered name (count + 1))

/-- A segment for a name that no sibling has, and the siblings in which it is in use. -/
def enroll (siblings : Siblings) (name : String) : String × Siblings :=
  siblings.enrollSegment (segmentOf name)

end Siblings

end LinkedQuery
