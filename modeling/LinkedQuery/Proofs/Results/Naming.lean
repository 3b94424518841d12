import LinkedQuery.Proofs.Variables.Below
import LinkedQuery.Settings.Basic
import Mathlib.Data.List.Forall2
import Mathlib.Data.List.Induction

/-!
# Schemes of names

A scheme of names can be made from any two texts, and tells all paths of segments apart:
`paths_named_apart` says that a variable has the name of one path only.  The texts that a scheme
keeps as they are, are the ones that settings are valid with: `validate_iff_kept` says so.
-/

namespace LinkedQuery

/-! ### Paths -/

namespace Naming

variable (naming : Naming)

/-- The variable at the end of a path of segments from the root. -/
def atPath (segments : List String) : Variable :=
  segments.foldl naming.child naming.rootVariable

theorem atPath_concat (segments : List String) (segment : String) :
  naming.atPath (segments ++ [segment]) = naming.child (naming.atPath segments) segment
  := by
  rw [atPath, List.foldl_concat, atPath]

/-- All paths lead below the root. -/
theorem below_atPath (segments : List String) :
  naming.Below naming.rootVariable (naming.atPath segments)
  := by
  induction segments using List.reverseRecOn with
  | nil => apply Below.self
  | append_singleton segments segment ih =>
      rw [atPath_concat]
      apply ih.child segment

/-- The root is at the end of no other path. -/
theorem atPath_concat_ne (segments : List String) (segment : String) :
  naming.atPath (segments ++ [segment]) ≠ naming.rootVariable
  := by
  rw [atPath_concat]
  intro h
  have hbelow := naming.below_atPath segments
  rw [← h] at hbelow
  apply Below.not_child _ _ hbelow

/-- Paths lead to the same variable exactly when they have the same segments. -/
theorem atPath_inj {segments segments' : List String} :
  naming.atPath segments = naming.atPath segments'
    ↔ segments.map segmentOf = segments'.map segmentOf
  := by
  induction segments using List.reverseRecOn generalizing segments' with
  | nil =>
      cases segments' using List.reverseRecOn with
      | nil => simp
      | append_singleton segments' segment' =>
          have hne := (naming.atPath_concat_ne segments' segment').symm
          simpa [atPath] using hne
  | append_singleton segments segment ih =>
      cases segments' using List.reverseRecOn with
      | nil =>
          have hne := naming.atPath_concat_ne segments segment
          simpa [atPath] using hne
      | append_singleton segments' segment' =>
          rw [atPath_concat, atPath_concat, child_inj, ih, List.map_append, List.map_append]
          constructor
          · rintro ⟨hsegments, hsegment⟩
            rw [hsegments, List.map_singleton, List.map_singleton, hsegment]
          · intro h
            obtain ⟨hsegments, hsegment⟩ := List.append_inj' h (by simp)
            use hsegments
            simpa using hsegment

end Naming

/-- In a scheme that is made from any two texts, paths of segments have the same name exactly when
they are of one length and their segments are the same one by one, and a child of any variable has
the same name as another exactly when their parents and their segments are the same. -/
theorem paths_named_apart (root separator : String) :
  (∀ segments segments',
      (Naming.ofText root separator).atPath segments
          = (Naming.ofText root separator).atPath segments'
        ↔ List.Forall₂ (fun segment segment' => segmentOf segment = segmentOf segment')
            segments segments')
    ∧ ∀ parent parent' segment segment',
        (Naming.ofText root separator).child parent segment
            = (Naming.ofText root separator).child parent' segment'
          ↔ parent = parent' ∧ segmentOf segment = segmentOf segment'
  := by
  constructor
  · intro segments segments'
    have hmap : segments.map segmentOf = segments'.map segmentOf
        ↔ List.Forall₂ (fun segment segment' => segmentOf segment = segmentOf segment')
            segments segments' := by
      rw [← List.forall₂_eq_eq_eq, List.forall₂_map_left_iff, List.forall₂_map_right_iff]
    rw [← hmap]
    apply Naming.atPath_inj
  · intro parent parent' segment segment'
    apply Naming.child_inj

/-! ### Settings -/

/-- A text is its own segment when it has the characters of segments alone. -/
theorem segmentOf_eq_self_iff {text : String} :
  segmentOf text = text ↔ text.toList.all isSegmentChar = true
  := by
  constructor
  · intro h
    rw [← h]
    apply all_isSegmentChar_segmentOf
  · apply segmentOf_of_all

namespace Naming

variable {root separator : String}

/-- A scheme keeps the names that can be the name of a root. -/
theorem root_ofText_eq_iff :
  (ofText root separator).root = root ↔ isRootName root = true
  := by
  constructor
  · intro h
    rw [← h]
    apply root_valid
  · intro h
    simp only [isRootName, Bool.and_eq_true, Bool.not_eq_true', List.isEmpty_eq_false_iff] at h
    obtain ⟨hne, hall⟩ := h
    have hroot := segmentOf_eq_self_iff.mpr hall
    simp only [ofText, hroot, hne, dite_false]
    split
    · rfl
    · rfl

/-- A scheme keeps the texts that can be separators. -/
theorem separator_ofText_eq_iff :
  (ofText root separator).separator = separator ↔ isSeparator separator = true
  := by
  constructor
  · intro h
    rw [← h]
    apply separator_valid
  · intro h
    simp only [isSeparator, Bool.and_eq_true, Bool.not_eq_true', List.isEmpty_eq_false_iff,
      List.all_eq_true] at h
    obtain ⟨hne, hall⟩ := h
    have hmarks : separator.toList.filter (· = separatorMark) = separator.toList :=
      List.filter_eq_self.mpr hall
    simp only [ofText, hmarks, hne, dite_false, String.ofList_toList]

end Naming

namespace Settings

/-- The names under which documents are served are fit if they are absolute IRIs. -/
theorem validate_of_absolute {settings : Settings}
    (absolute : ∀ iri ∈ settings.contextCache.names, Iri.hasScheme iri = true) :
  settings.validate
    = if isRootName settings.rootVariable = false then .error (.rootVariable settings.rootVariable)
      else if isSeparator settings.separator = false then .error (.separator settings.separator)
      else .ok ()
  := by
  have hnone : (settings.contextCache.names.find? fun iri => !Iri.hasScheme iri) = none := by
    rw [List.find?_eq_none]
    intro iri hiri
    simp [absolute iri hiri]
  simp only [validate, hnone, Bool.not_eq_true']

end Settings

/-- Settings whose documents are served by absolute IRIs are valid exactly when the scheme made from
their two texts, which is the scheme of their grammar, has the texts for its root and its separator.
Otherwise the text that is not kept is at fault, the one for the root first. -/
theorem validate_iff_kept (settings : Settings)
    (absolute : ∀ iri ∈ settings.contextCache.names, Iri.hasScheme iri = true) :
  let naming := Naming.ofText settings.rootVariable settings.separator
  settings.grammar.naming = naming
    ∧ (settings.validate = .ok ()
        ↔ naming.root = settings.rootVariable ∧ naming.separator = settings.separator)
    ∧ (settings.validate = .error (.rootVariable settings.rootVariable)
        ↔ naming.root ≠ settings.rootVariable)
    ∧ (settings.validate = .error (.separator settings.separator)
        ↔ naming.root = settings.rootVariable ∧ naming.separator ≠ settings.separator)
  := by
  intro naming
  use rfl
  rw [Settings.validate_of_absolute absolute, ne_eq, ne_eq, Naming.root_ofText_eq_iff,
    Naming.separator_ofText_eq_iff]
  cases isRootName settings.rootVariable with
  | false => simp
  | true => cases isSeparator settings.separator with
    | false => simp
    | true => simp

/-- Settings with a person for the root and a document at hand. -/
def personal : Settings where
  rootVariable := "person"
  separator := "··"
  contextCache := [("https://example.com/terms", .object [])]

/-- The settings are valid and keep their texts; with a hyphen for the separator they are not. -/
theorem validate_iff_kept_personal :
  personal.validate = .ok () ∧ personal.grammar.naming.root = "person"
    ∧ personal.grammar.naming.separator = "··"
    ∧ { personal with separator := "-" }.validate = .error (.separator "-")
  := by
  have absolute : ∀ iri ∈ personal.contextCache.names, Iri.hasScheme iri = true := by decide
  obtain ⟨hnaming, hvalid, -⟩ := validate_iff_kept personal absolute
  obtain ⟨-, -, -, hhyphen⟩ := validate_iff_kept { personal with separator := "-" } absolute
  have hkept := hvalid.mp (by decide)
  rw [hnaming]
  use hvalid.mpr hkept, hkept.1, hkept.2
  apply hhyphen.mpr
  constructor
  · decide
  · decide

end LinkedQuery
