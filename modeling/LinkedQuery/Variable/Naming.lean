import LinkedQuery.Iri.Basic
import LinkedQuery.Rdf.Term

/-!
# Variable names

A variable is named after its place in the document: `Naming.child` puts a separator and a
segment behind the name of the parent.  A segment holds only letters, digits and underscores and
a separator only middle dots, so the name of a variable tells the whole path to it.
-/

namespace LinkedQuery

/-- A character of a segment. -/
def isSegmentChar (c : Char) : Bool :=
  Iri.isLetter c || Iri.isDigit c || c = '_'

/-- The character of separators. -/
def separatorMark : Char := '·'

/-- A text without characters that no segment holds: each becomes an underscore. -/
def segmentOf (text : String) : String :=
  String.ofList (text.toList.map fun c => if isSegmentChar c then c else '_')

/-- Whether a text can be the name of the root. -/
def isRootName (text : String) : Bool :=
  !text.toList.isEmpty && text.toList.all isSegmentChar

/-- Whether a text can be a separator. -/
def isSeparator (text : String) : Bool :=
  !text.toList.isEmpty && text.toList.all (· = separatorMark)

/-- A scheme of variable names. -/
structure Naming where
  root : String := "root"
  separator : String := "·"
  root_valid : isRootName root = true := by decide
  separator_valid : isSeparator separator = true := by decide

theorem all_isSegmentChar_segmentOf (text : String) :
  (segmentOf text).toList.all isSegmentChar = true
  := by
  simp only [segmentOf, String.toList_ofList, List.all_map, List.all_eq_true, Function.comp_apply]
  intro c _
  by_cases h : isSegmentChar c <;> simp [h]
  decide

theorem isSeparator_filter {text : String} (h : (text.toList.filter (· = separatorMark)) ≠ []) :
  isSeparator (String.ofList (text.toList.filter (· = separatorMark))) = true
  := by
  simp only [isSeparator, String.toList_ofList, Bool.and_eq_true, Bool.not_eq_true',
    List.isEmpty_eq_false_iff, List.all_eq_true]
  exact ⟨h, fun c hc => (List.mem_filter.mp hc).2⟩

namespace Naming

/-- The scheme that comes nearest to a root and a separator: other characters of the root become
underscores, other characters of the separator are left out, and what is empty then takes its
default. -/
def ofText (root separator : String) : Naming :=
  let marks := separator.toList.filter (· = separatorMark)
  let scheme : Naming :=
    if h : (segmentOf root).toList = [] then {}
    else
      { root := segmentOf root
        root_valid := by simp [isRootName, h, all_isSegmentChar_segmentOf] }
  if h : marks = [] then scheme
  else { scheme with separator := String.ofList marks, separator_valid := isSeparator_filter h }

/-- The variable of the document. -/
def rootVariable (naming : Naming) : Variable :=
  ⟨naming.root⟩

/-- The variable of a segment under a parent. -/
def child (naming : Naming) (parent : Variable) (segment : String) : Variable :=
  ⟨parent.name ++ naming.separator ++ segmentOf segment⟩

end Naming

end LinkedQuery
