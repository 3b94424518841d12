import LinkedQuery.Proofs.Variables.Below
import LinkedQuery.Variable.Siblings

/-!
# Fresh segments

The segment that a name is enrolled under is one that no sibling has, and from then on it is in
use.  It is a segment in every character, so putting it behind a parent does not change it.
-/

namespace LinkedQuery.Siblings

/-- The names in use after an insertion. -/
theorem mem_names_insert {α : Type} {entries : Entries α} {name other : String} {value : α} :
  other ∈ (entries.insert name value).names ↔ other ∈ entries.names ∨ other = name
  := by
  rw [Entries.names_insert]
  split
  · constructor
    · apply Or.inl
    · rintro (h | rfl)
      · apply h
      · assumption
  · simp

/-- Counting a name again brings no name into use. -/
theorem mem_names_recount {α : Type} {entries : Entries α} {name other : String} {old new : α}
    (known : entries.lookup name = some old) :
  other ∈ (entries.insert name new).names ↔ other ∈ entries.names
  := by
  rw [mem_names_insert, or_iff_left_iff_imp]
  rintro rfl
  apply Entries.mem_names_of_lookup known

/-- A name without a value is not in use. -/
theorem notMem_names_of_lookup {α : Type} {entries : Entries α} {name : String}
    (h : entries.lookup name = none) :
  name ∉ entries.names
  := by
  intro hmem
  obtain ⟨⟨key, value⟩, hentry, rfl⟩ := List.mem_map.mp hmem
  have := List.lookup_eq_none_iff.mp h _ hentry
  simp at this

/-- A segment with a number behind is a segment. -/
theorem segmentOf_numbered {name : String} (h : segmentOf name = name) (number : Nat) :
  segmentOf (numbered name number) = numbered name number
  := by
  apply segmentOf_of_all
  have hname := all_isSegmentChar_segmentOf name
  rw [h] at hname
  have hdigit (c : Char) (hc : c ∈ number.repr.toList) : isSegmentChar c = true := by
    have : c.isDigit = true := by
      apply Nat.isDigit_of_mem_toDigits (b := 10) (n := number) (by omega) (by omega)
      simpa [Nat.repr] using hc
    simp only [Char.isDigit, Bool.and_eq_true, decide_eq_true_eq] at this
    simp only [isSegmentChar, Iri.isDigit, Bool.or_eq_true, Bool.and_eq_true, decide_eq_true_eq]
    exact .inl (.inr this)
  simp only [numbered, String.toList_append, List.all_append, hname, Bool.true_and,
    Bool.and_eq_true, List.all_eq_true]
  constructor
  · intro c hc
    obtain rfl : c = '_' := by simpa using hc
    decide
  · apply hdigit

/-- What the segment for a name is, and which names are in use then. -/
theorem enrollSegment_spec (siblings : Siblings) (name : String) (h : segmentOf name = name) :
  let enrolled := siblings.enrollSegment name
  enrolled.1 ∉ siblings.counts.names
    ∧ (∀ other, other ∈ enrolled.2.counts.names
        ↔ other ∈ siblings.counts.names ∨ other = enrolled.1)
    ∧ segmentOf enrolled.1 = enrolled.1
  := by
  fun_induction enrollSegment siblings name with
  | case1 siblings name known =>
      refine ⟨notMem_names_of_lookup known, ?_, h⟩
      intro other
      apply mem_names_insert
  | case2 siblings name count known counted candidate used ih =>
      obtain ⟨hfresh, hnames, hsegment⟩ := ih (segmentOf_numbered h (count + 1))
      simp only [counted, mem_names_recount known] at hfresh hnames
      exact ⟨hfresh, hnames, hsegment⟩
  | case3 siblings name count known counted candidate unused =>
      rw [mem_names_recount known] at unused
      refine ⟨unused, ?_, segmentOf_numbered h (count + 1)⟩
      intro other
      rw [mem_names_insert, mem_names_recount known]

/-- The segment for a text is one that no sibling has, and it is in use from then on. -/
theorem enroll_spec (siblings : Siblings) (text : String) :
  let enrolled := siblings.enroll text
  enrolled.1 ∉ siblings.counts.names
    ∧ (∀ other, other ∈ enrolled.2.counts.names
        ↔ other ∈ siblings.counts.names ∨ other = enrolled.1)
    ∧ segmentOf enrolled.1 = enrolled.1
  := by
  apply enrollSegment_spec
  apply segmentOf_of_all (all_isSegmentChar_segmentOf text)

end LinkedQuery.Siblings
