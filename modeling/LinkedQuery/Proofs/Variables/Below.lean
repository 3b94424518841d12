import LinkedQuery.Variable.Naming

/-!
# The tree of variables

The children of variables form trees: a child tells its parent and its segment, and nothing is
below two children of one variable that differ.  `Naming.Below` is the order of these trees, in
which all variables of an element are below the one that it binds.
-/

namespace LinkedQuery

/-! ### Segments and separators -/

/-- A text of segment characters is a segment already. -/
theorem segmentOf_of_all {text : String} (h : text.toList.all isSegmentChar = true) :
  segmentOf text = text
  := by
  rw [segmentOf, ← String.toList_inj, String.toList_ofList]
  apply (List.map_congr_left _).trans (List.map_id _)
  intro c hc
  simp [List.all_eq_true.mp h c hc]

/-- Segments have no separator in them. -/
theorem separatorMark_notMem_segmentOf (text : String) :
  separatorMark ∉ (segmentOf text).toList
  := by
  intro h
  have := List.all_eq_true.mp (all_isSegmentChar_segmentOf text) _ h
  revert this
  decide

/-- A text is split in one way only behind its last mark. -/
theorem split_at_last {α : Type} {mark : α} {front front' rest rest' : List α}
    (h : mark ∉ rest) (h' : mark ∉ rest') (heq : front ++ mark :: rest = front' ++ mark :: rest') :
  front = front' ∧ rest = rest'
  := by
  rcases List.append_eq_append_iff.mp heq with ⟨more, rfl, htail⟩ | ⟨more, rfl, htail⟩
  · cases more with
    | nil => simpa using htail
    | cons first more =>
        simp only [List.cons_append, List.cons.injEq] at htail
        simp [htail.2] at h
  · cases more with
    | nil => simpa using htail.symm
    | cons first more =>
        simp only [List.cons_append, List.cons.injEq] at htail
        simp [htail.2] at h'

namespace Naming

variable (naming : Naming)

/-- A separator ends with a mark. -/
theorem separator_eq :
  ∃ front, naming.separator.toList = front ++ [separatorMark]
  := by
  have h := naming.separator_valid
  simp only [isSeparator, Bool.and_eq_true, Bool.not_eq_true', List.isEmpty_eq_false_iff,
    List.all_eq_true, decide_eq_true_eq] at h
  obtain ⟨hne, hall⟩ := h
  refine ⟨naming.separator.toList.dropLast, ?_⟩
  rw [← hall _ (List.getLast_mem hne), List.dropLast_concat_getLast]

/-- A child tells its parent and its segment. -/
theorem child_inj {parent parent' : Variable} {segment segment' : String} :
  naming.child parent segment = naming.child parent' segment'
    ↔ parent = parent' ∧ segmentOf segment = segmentOf segment'
  := by
  constructor
  · intro h
    obtain ⟨front, hfront⟩ := naming.separator_eq
    simp only [child, Variable.mk.injEq, ← String.toList_inj, String.toList_append, hfront,
      List.append_assoc, List.singleton_append] at h
    rw [← List.append_assoc, ← List.append_assoc] at h
    obtain ⟨hparent, hsegment⟩ := split_at_last (separatorMark_notMem_segmentOf segment)
      (separatorMark_notMem_segmentOf segment') h
    constructor
    · obtain ⟨name⟩ := parent
      obtain ⟨name'⟩ := parent'
      simpa [String.toList_inj] using hparent
    · apply String.toList_inj.mp hsegment
  · rintro ⟨rfl, h⟩
    rw [child, child, h]

/-- A child has a longer name than its parent. -/
theorem length_lt_length_child (parent : Variable) (segment : String) :
  parent.name.length < (naming.child parent segment).name.length
  := by
  obtain ⟨front, hfront⟩ := naming.separator_eq
  have hlength : naming.separator.length = front.length + 1 := by
    rw [← String.length_toList, hfront, List.length_append, List.length_singleton]
  simp only [child, String.length_append]
  omega

/-! ### Descent -/

/-- Whether a variable is an ancestor or is reached from it by some segments. -/
inductive Below (ancestor : Variable) : Variable → Prop where
  | self : Below ancestor ancestor
  | child {v : Variable} (segment : String) (below : Below ancestor v) :
      Below ancestor (naming.child v segment)

namespace Below

variable {naming} {u v w : Variable}

theorem trans (h : naming.Below u v) (h' : naming.Below v w) :
  naming.Below u w
  := by
  induction h' with
  | self => apply h
  | child segment _ ih => apply ih.child segment

/-- What is below a child is below its parent. -/
theorem of_child {segment : String} (h : naming.Below (naming.child u segment) v) :
  naming.Below u v
  := by
  apply Below.trans _ h
  apply Below.self.child segment

theorem length_le (h : naming.Below u v) :
  u.name.length ≤ v.name.length
  := by
  induction h with
  | self => apply Nat.le_refl
  | child segment _ ih =>
      apply Nat.le_trans ih
      apply Nat.le_of_lt (naming.length_lt_length_child _ segment)

/-- No variable is below a child of itself. -/
theorem not_child (u : Variable) (segment : String) :
  ¬ naming.Below (naming.child u segment) u
  := by
  intro h
  have := naming.length_lt_length_child u segment
  have := h.length_le
  omega

/-- What is below two children of a variable tells that they are the same. -/
theorem segment_eq {segment segment' : String} (h : naming.Below (naming.child u segment) w)
    (h' : naming.Below (naming.child u segment') w) :
  segmentOf segment = segmentOf segment'
  := by
  -- The shorter of the two paths to `w` ends first, and then `w` is a child of `u`.
  induction h with
  | self =>
      generalize hw : naming.child u segment = w at h'
      cases h' with
      | self => apply (naming.child_inj.mp hw).2
      | child last below =>
          rw [(naming.child_inj.mp hw).1] at below
          apply absurd below (not_child _ _)
  | child last below ih =>
      generalize hw : naming.child _ last = w at h'
      cases h' with
      | self =>
          rw [(naming.child_inj.mp hw).1] at below
          apply absurd below (not_child _ _)
      | child last' below' =>
          rw [← (naming.child_inj.mp hw).1] at below'
          apply ih below'

end Below

end Naming

end LinkedQuery
