import LinkedQuery.Proofs.Variables.Segments
import Mathlib.Data.List.Nodup

/-!
# Segments one after the other

`Siblings.segments` enrolls texts one after the other, each among the siblings that those before it
have left.  What is in use then are the segments that have been given, in their order.  No two of
them are the same, and each is the segment of its text with some numbers behind:
`segments_fresh` says how many at most, and when there are none.
-/

namespace LinkedQuery.Siblings

/-- The segments under which texts are enrolled, one after the other. -/
def segments (siblings : Siblings) : List String → List String
  | [] => []
  | text :: texts => (siblings.enroll text).1 :: (siblings.enroll text).2.segments texts

/-! ### One segment -/

/-- Whether every name in use has been asked for. -/
def Counted (siblings : Siblings) : Prop :=
  ∀ name count, siblings.counts.lookup name = some count → 1 ≤ count

/-- Names stay counted when one of them is counted once more, or a new one is counted. -/
theorem Counted.insert {siblings : Siblings} (counted : siblings.Counted) {name : String}
    {count : Nat} (h : 1 ≤ count) :
  Counted ⟨siblings.counts.insert name count⟩
  := by
  intro other found hfound
  by_cases hname : other = name
  · subst hname
    rw [Entries.lookup_insert_self, Option.some.injEq] at hfound
    omega
  · rw [Entries.lookup_insert_of_ne _ _ hname] at hfound
    apply counted other found hfound

/-- A new name comes after those in use. -/
theorem names_insert_of_notMem {α : Type} {entries : Entries α} {name : String}
    (h : name ∉ entries.names) (value : α) :
  (entries.insert name value).names = entries.names ++ [name]
  := by
  rw [Entries.names_insert, if_neg h]

/-- Counting a name again leaves the names in use. -/
theorem names_recount {α : Type} {entries : Entries α} {name : String} {old new : α}
    (known : entries.lookup name = some old) :
  (entries.insert name new).names = entries.names
  := by
  rw [Entries.names_insert, if_pos (Entries.mem_names_of_lookup known)]

/-- The segment for a name comes after the names in use, which stay counted.  It is the name with
numbers behind, and each name that the search passes is longer than the one before. -/
theorem enrollSegment_numbers (siblings : Siblings) (name : String) (counted : siblings.Counted) :
  let enrolled := siblings.enrollSegment name
  enrolled.2.counts.names = siblings.counts.names ++ [enrolled.1]
    ∧ enrolled.2.Counted
    ∧ ∃ numbers : List Nat, enrolled.1 = numbers.foldl numbered name
        ∧ (∀ number ∈ numbers, 2 ≤ number)
        ∧ numbers.length ≤ (siblings.longerNames name.length).length + 1
  := by
  fun_induction enrollSegment siblings name with
  | case1 siblings name known =>
      use names_insert_of_notMem (notMem_names_of_lookup known) 1, counted.insert (by omega), []
      simp
  | case2 siblings name count known recounted candidate used ih =>
      have hcount := counted name count known
      obtain ⟨hnames, hcounted, numbers, hsegment, hseveral, hlength⟩ :=
        ih (counted.insert (by omega))
      have hshorter := length_longerNames_lt used (length_lt_length_numbered name (count + 1))
      have hlonger : recounted.longerNames name.length = siblings.longerNames name.length :=
        longerNames_insert (Entries.mem_names_of_lookup known) (count + 1) name.length
      rw [names_recount known] at hnames
      use hnames, hcounted, (count + 1) :: numbers, hsegment
      constructor
      · rw [List.forall_mem_cons]
        use Nat.succ_le_succ hcount
      · rw [hlonger] at hshorter
        rw [List.length_cons]
        omega
  | case3 siblings name count known recounted candidate unused =>
      have hcount := counted name count known
      have hnames := names_insert_of_notMem unused 1
      simp only [recounted, names_recount known] at hnames
      use hnames, (counted.insert (by omega)).insert (by omega), [count + 1], rfl
      simp only [List.mem_singleton, forall_eq, List.length_singleton]
      omega

/-- The segment for a text comes after the names in use, which stay counted.  It is the segment of
the text exactly when that is not in use, and has at most as many numbers behind as there are names
in use. -/
theorem enroll_numbers (siblings : Siblings) (text : String) (counted : siblings.Counted) :
  let enrolled := siblings.enroll text
  enrolled.2.counts.names = siblings.counts.names ++ [enrolled.1]
    ∧ enrolled.2.Counted
    ∧ (enrolled.1 = segmentOf text ↔ segmentOf text ∉ siblings.counts.names)
    ∧ ∃ numbers : List Nat, enrolled.1 = numbers.foldl numbered (segmentOf text)
        ∧ (∀ number ∈ numbers, 2 ≤ number)
        ∧ numbers.length ≤ siblings.counts.names.length
  := by
  obtain ⟨hnames, hcounted, numbers, hsegment, hseveral, hlength⟩ :=
    siblings.enrollSegment_numbers (segmentOf text) counted
  use hnames, hcounted
  by_cases hused : segmentOf text ∈ siblings.counts.names
  · obtain ⟨hfresh, -, -⟩ := siblings.enroll_spec text
    constructor
    · constructor
      · rintro heq
        rw [heq] at hfresh
        exact absurd hused hfresh
      · intro hunused
        exact absurd hused hunused
    · use numbers, hsegment, hseveral
      -- The name itself is in use, and is not longer than itself.
      apply Nat.le_trans hlength
      rw [Nat.succ_le_iff, longerNames, List.length_filter_lt_length_iff_exists]
      use segmentOf text, hused
      simp
  · have hself : (siblings.enroll text).1 = segmentOf text := by rw [enroll_of_notMem hused]
    use ⟨fun _ => hused, fun _ => hself⟩, [], hself
    simp

/-! ### All segments -/

theorem length_segments (siblings : Siblings) (texts : List String) :
  (siblings.segments texts).length = texts.length
  := by
  induction texts generalizing siblings with
  | nil => rfl
  | cons text texts ih => rw [segments, List.length_cons, ih, List.length_cons]

/-- The segments of texts differ from the names in use and from each other. -/
theorem nodup_segments (siblings : Siblings) (texts : List String) (counted : siblings.Counted)
    (distinct : siblings.counts.names.Nodup) :
  (siblings.counts.names ++ siblings.segments texts).Nodup
  := by
  induction texts generalizing siblings with
  | nil => simpa [segments] using distinct
  | cons text texts ih =>
      obtain ⟨hnames, hcounted, -⟩ := siblings.enroll_numbers text counted
      obtain ⟨hfresh, -, -⟩ := siblings.enroll_spec text
      rw [segments, List.append_cons, ← hnames]
      apply ih _ hcounted
      rw [hnames, ← List.concat_eq_append, List.nodup_concat]
      exact ⟨hfresh, distinct⟩

/-- The segment of a text among texts is the text's own segment with numbers behind, at most as many
as there are names in use or texts before it.  It is the text's own segment exactly when that is
neither in use nor the segment of a text before it. -/
theorem segments_numbers (siblings : Siblings) (texts : List String) (counted : siblings.Counted)
    {position : Nat} {text segment : String} (asked : texts[position]? = some text)
    (given : (siblings.segments texts)[position]? = some segment) :
  (segment = segmentOf text ↔ segmentOf text ∉ siblings.counts.names ∧
      segmentOf text ∉ (siblings.segments texts).take position)
    ∧ ∃ numbers : List Nat, segment = numbers.foldl numbered (segmentOf text)
        ∧ (∀ number ∈ numbers, 2 ≤ number)
        ∧ numbers.length ≤ siblings.counts.names.length + position
  := by
  induction texts generalizing siblings position with
  | nil => cases asked
  | cons first texts ih =>
      obtain ⟨hnames, hcounted, hself, hnumbers⟩ := siblings.enroll_numbers first counted
      rw [segments] at given ⊢
      cases position with
      | zero =>
          obtain rfl : first = text := Option.some.inj asked
          obtain rfl : (siblings.enroll first).1 = segment := Option.some.inj given
          constructor
          · simpa using hself
          · apply hnumbers
      | succ position =>
          have hrest := ih _ hcounted asked given
          rw [hnames, List.mem_append, List.mem_singleton, List.length_append,
            List.length_singleton, not_or, and_assoc, Nat.add_assoc, Nat.add_comm 1] at hrest
          rw [List.take_succ_cons, List.mem_cons, not_or]
          apply hrest

/-- Texts that are enrolled one after the other get as many segments, no two of them the same.  Each
is the segment of its text with numbers from two on behind, at most as many as there are texts
before it, and there are none exactly when no text before it has been given the segment. -/
theorem segments_fresh (texts : List String) :
  (({} : Siblings).segments texts).length = texts.length
    ∧ (({} : Siblings).segments texts).Nodup
    ∧ ∀ position text segment, texts[position]? = some text →
        (({} : Siblings).segments texts)[position]? = some segment →
        (segment = segmentOf text
            ↔ segmentOf text ∉ (({} : Siblings).segments texts).take position)
          ∧ ∃ numbers : List Nat, segment = numbers.foldl numbered (segmentOf text)
              ∧ (∀ number ∈ numbers, 2 ≤ number) ∧ numbers.length ≤ position
  := by
  have hcounted : ({} : Siblings).Counted := by
    intro name count h
    cases h
  use length_segments {} texts
  constructor
  · apply nodup_segments {} texts hcounted List.nodup_nil
  · intro position text segment asked given
    simpa [Entries.names] using segments_numbers {} texts hcounted asked given

/-- A number that has been asked for by itself is passed over when the name comes again, and texts
with the same segment are told apart. -/
theorem segments_fresh_names :
  ({} : Siblings).segments ["name_2", "name", "name", "first name", "first_name"]
      = ["name_2", "name", "name_2_2", "first_name", "first_name_2"]
    ∧ ∃ numbers : List Nat, "name_2_2" = numbers.foldl numbered "name"
        ∧ (∀ number ∈ numbers, 2 ≤ number) ∧ numbers.length ≤ 2
  := by
  have hsegments : ({} : Siblings).segments ["name_2", "name", "name", "first name", "first_name"]
      = ["name_2", "name", "name_2_2", "first_name", "first_name_2"] := by decide +kernel
  obtain ⟨-, -, hthird⟩ :=
    segments_fresh ["name_2", "name", "name", "first name", "first_name"]
  have hnumbers := (hthird 2 "name" "name_2_2" rfl (by rw [hsegments]; rfl)).2
  have hname : segmentOf "name" = "name" := by decide
  rw [hname] at hnumbers
  use hsegments

end LinkedQuery.Siblings
