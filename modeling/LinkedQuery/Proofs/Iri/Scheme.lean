import LinkedQuery.Iri.Resolution

/-!
# Schemes

What is written behind an IRI leaves its scheme as it is, and what is written without a colon behind
any text gives it none.  A reference that is resolved has the scheme of its own, or else that of the
base.
-/

namespace LinkedQuery.Iri

/-! ### The first colon -/

theorem splitAtColon_append {text lead suffix : List Char}
    (h : splitAtColon text = some (lead, suffix)) (rest : List Char) :
  splitAtColon (text ++ rest) = some (lead, suffix ++ rest)
  := by
  induction text generalizing lead suffix with
  | nil => cases h
  | cons c text ih =>
      rw [List.cons_append, splitAtColon]
      rw [splitAtColon] at h
      split at h
      · obtain ⟨rfl, rfl⟩ : [] = lead ∧ text = suffix := by simpa using h
        rw [if_pos ‹_›]
      · obtain ⟨⟨before, behind⟩, hsplit, heq⟩ := Option.map_eq_some_iff.mp h
        obtain ⟨rfl, rfl⟩ : c :: before = lead ∧ behind = suffix := by simpa using heq
        rw [if_neg ‹_›, ih hsplit]
        rfl

theorem splitAtColon_append_of_none {text : List Char} (h : splitAtColon text = none)
    (rest : List Char) :
  splitAtColon (text ++ rest)
    = (splitAtColon rest).map fun parts => (text ++ parts.1, parts.2)
  := by
  induction text with
  | nil => simp
  | cons c text ih =>
      rw [splitAtColon] at h
      split at h
      · cases h
      · rw [List.cons_append, splitAtColon, if_neg ‹_›, ih (Option.map_eq_none_iff.mp h),
          Option.map_map]
        rfl

theorem splitAtColon_eq_none {text : List Char} (h : ':' ∉ text) :
  splitAtColon text = none
  := by
  induction text with
  | nil => rfl
  | cons c text ih =>
      obtain ⟨hne, hrest⟩ : ':' ≠ c ∧ ':' ∉ text := by simpa using h
      rw [splitAtColon, if_neg (Ne.symm hne), ih hrest]
      rfl

/-- There is no colon in a scheme. -/
theorem colon_notMem_of_isScheme {scheme : List Char} (h : isScheme scheme = true) :
  ':' ∉ scheme
  := by
  cases scheme with
  | nil => simp
  | cons c rest =>
      rw [isScheme, Bool.and_eq_true, List.all_eq_true] at h
      have colon : isSchemeChar ':' = false := by decide
      have letter : isLetter ':' = false := by decide
      intro hmem
      rcases List.mem_cons.mp hmem with rfl | hmem
      · cases letter.symm.trans h.1
      · cases colon.symm.trans (h.2 _ hmem)

/-! ### Texts -/

/-- Behind an IRI there may stand anything. -/
theorem hasScheme_append {iri : String} (h : hasScheme iri = true) (rest : String) :
  hasScheme (iri ++ rest) = true
  := by
  unfold hasScheme at h ⊢
  cases hsplit : splitAtColon iri.toList with
  | none => simp [hsplit] at h
  | some parts =>
      rw [String.toList_append, splitAtColon_append hsplit]
      simpa [hsplit] using h

/-- What is written without a colon behind a text gives it no scheme. -/
theorem hasScheme_append_eq (text : String) {rest : String} (h : ':' ∉ rest.toList) :
  hasScheme (text ++ rest) = hasScheme text
  := by
  unfold hasScheme
  rw [String.toList_append]
  cases hsplit : splitAtColon text.toList with
  | none => rw [splitAtColon_append_of_none hsplit, splitAtColon_eq_none h, Option.map_none]
  | some parts => rw [splitAtColon_append hsplit]

/-- A text without a colon is neither compact nor absolute. -/
theorem simple_of_notMem {text : String} (h : ':' ∉ text.toList) :
  compact? text = none ∧ hasScheme text = false
  := by
  simp [compact?, hasScheme, splitAtColon_eq_none h]

/-! ### Resolution -/

/-- What stands before the colon of an IRI is the scheme among its components. -/
theorem isScheme_of_ofList {text scheme : List Char}
    (h : (Components.ofList text).scheme = some scheme) :
  isScheme scheme = true
  := by
  have hsplit : (splitScheme text).1 = some scheme := h
  rw [splitScheme] at hsplit
  split at hsplit
  · split at hsplit
    · cases hsplit
      assumption
    · cases hsplit
  · cases hsplit

/-- Components with a scheme are written with it. -/
theorem hasScheme_toList {parts : Components} {scheme : List Char}
    (held : parts.scheme = some scheme) (h : isScheme scheme = true) :
  hasScheme (String.ofList parts.toList) = true
  := by
  obtain ⟨rest, hrest⟩ : ∃ rest, parts.toList = scheme ++ ':' :: rest := by
    rw [Components.toList, held]
    simp
  rw [hasScheme, String.toList_ofList, hrest,
    splitAtColon_append_of_none (splitAtColon_eq_none (colon_notMem_of_isScheme h))]
  simpa [splitAtColon] using h

theorem resolveComponents?_scheme {base reference resolved : Components}
    (h : resolveComponents? base reference = some resolved) :
  resolved.scheme = reference.scheme.or base.scheme
  := by
  unfold resolveComponents? at h
  cases hscheme : reference.scheme with
  | some scheme =>
      simp only [hscheme, Option.isSome_some, if_true, Option.some.injEq] at h
      simp [← h, hscheme]
  | none =>
      simp only [hscheme, Option.isSome_none, Bool.false_eq_true, if_false] at h
      split at h
      · cases h
        rfl
      · split at h
        · split at h
          · cases h
            rfl
          · cases h
            rfl
        · obtain ⟨path, -, rfl⟩ := Option.map_eq_some_iff.mp h
          rfl

/-- A reference is resolved to an IRI with a scheme. -/
theorem hasScheme_resolve? {base reference iri : String} (h : resolve? base reference = some iri) :
  hasScheme iri = true
  := by
  rw [resolve?] at h
  split at h
  · rename_i valid
    obtain ⟨resolved, hresolved, rfl⟩ := Option.map_eq_some_iff.mp h
    have hscheme := resolveComponents?_scheme hresolved
    obtain ⟨scheme, hbase⟩ : ∃ scheme, (Components.ofList base.toList).scheme = some scheme := by
      apply Option.isSome_iff_exists.mp
      have hvalid := (Bool.and_eq_true _ _).mp valid
      exact ((Bool.and_eq_true _ _).mp hvalid.1).1
    cases hreference : (Components.ofList reference.toList).scheme with
    | some own =>
        rw [hreference, Option.some_or] at hscheme
        exact hasScheme_toList hscheme (isScheme_of_ofList hreference)
    | none =>
        rw [hreference, Option.none_or, hbase] at hscheme
        exact hasScheme_toList hscheme (isScheme_of_ofList hbase)
  · cases h

end LinkedQuery.Iri
