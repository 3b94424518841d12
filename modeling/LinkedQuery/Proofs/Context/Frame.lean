import LinkedQuery.Proofs.Context.Declaration
import LinkedQuery.Proofs.Context.Likeness

/-!
# What a context object leaves alone

The entries of a context object that declare no terms decide about the base and the vocabulary, each
about its own (`withKeywords_frame`).  Declaring terms puts the new ones behind those that are there
(`Creation.Reaches.names_eq`).
-/

namespace LinkedQuery

namespace Context

/-! ### Keywords -/

section Keywords

variable {context based keyed : Context} {declared : Entries Json} {entry : Option Json}

/-- An entry for the base leaves the vocabulary and the terms alone. -/
theorem withBase_frame (h : context.withBase entry = .ok based) :
  based.vocab = context.vocab ∧ based.terms = context.terms
    ∧ (entry = none → based.base = context.base)
  := by
  unfold withBase at h
  split at h
  · cases h
    simp
  · cases h
    simp
  · split at h
    · cases h
      simp
    · split at h
      · cases h
        simp
      · cases h
  · cases h

/-- An entry for the vocabulary leaves the base and the terms alone. -/
theorem withVocab_frame (h : context.withVocab entry = .ok keyed) :
  keyed.base = context.base ∧ keyed.terms = context.terms
    ∧ (entry = none → keyed.vocab = context.vocab)
  := by
  unfold withVocab at h
  split at h
  · cases h
    simp
  · cases h
    simp
  · cases h
    simp
  · cases h

/-- The entry for the vocabulary is read under the base that the entry for the base sets. -/
theorem withKeywords_based (h : context.withKeywords declared = .ok keyed) :
  ∃ based, context.withBase (declared.lookup Keyword.base.text) = .ok based
    ∧ based.withVocab (declared.lookup Keyword.vocab.text) = .ok keyed
  := by
  rw [withKeywords_eq] at h
  obtain ⟨-, -, h⟩ := bind_eq_ok.mp h
  exact bind_eq_ok.mp h

/-- Entries that declare no terms leave the terms alone, and the base and the vocabulary too unless
they are about them. -/
theorem withKeywords_frame (h : context.withKeywords declared = .ok keyed) :
  keyed.terms = context.terms
    ∧ (declared.lookup Keyword.base.text = none → keyed.base = context.base)
    ∧ (declared.lookup Keyword.vocab.text = none → keyed.vocab = context.vocab)
  := by
  obtain ⟨based, hbased, hkeyed⟩ := withKeywords_based h
  obtain ⟨vocab, terms, base⟩ := withBase_frame hbased
  obtain ⟨base', terms', vocab'⟩ := withVocab_frame hkeyed
  use terms'.trans terms, fun free => base'.trans (base free)
  exact fun free => (vocab' free).trans vocab

/-- The text of an entry for the vocabulary is read in a context that has changed by its base alone;
without a text there is no vocabulary. -/
theorem withKeywords_vocab {value : Json} (h : context.withKeywords declared = .ok keyed)
    (entry : declared.lookup Keyword.vocab.text = some value) :
  keyed.vocab = value.string?.bind (vocabOf { context with base := keyed.base })
  := by
  obtain ⟨based, hbased, hkeyed⟩ := withKeywords_based h
  obtain ⟨vocab, terms, -⟩ := withBase_frame hbased
  rw [entry] at hkeyed
  cases value with
  | null =>
      cases hkeyed
      rfl
  | string text =>
      cases hkeyed
      simp [Json.string?, ← vocab, ← terms]
  | _ => cases hkeyed

end Keywords

end Context

/-! ### Terms -/

namespace Creation

variable {declared : Entries Json} {context : Context} {final : Creation}

/-- No keyword is defined by a run. -/
theorem Reaches.plain (run : Reaches declared ⟨context, []⟩ final) {name : String}
    (h : name ∈ final.done) :
  Keyword.isKeyword name = false
  := ((run.done_new h).resolve_left (by simp)).2

/-- A run puts the terms that are new behind those of the context, each of them once. -/
theorem Reaches.names_eq (run : Reaches declared ⟨context, []⟩ final) :
  ∃ added, final.context.terms.names = context.terms.names ++ added ∧ added.Nodup
    ∧ ∀ name, name ∈ added ↔ name ∈ final.done ∧ name ∉ context.terms.names
  := by
  induction run with
  | refl =>
      use []
      simp
  | @tail between _ _ step ih =>
      cases step with
      | @record term value defined ready =>
          obtain ⟨added, hnames, distinct, hadded⟩ := ih
          have hrecord : (between.record term defined).context.terms.names
              = if term ∈ context.terms.names ++ added then context.terms.names ++ added
                else context.terms.names ++ added ++ [term] := by
            rw [← hnames]
            apply Entries.names_insert
          have fresh : term ∉ added := fun h => ready.fresh ((hadded term).mp h).1
          by_cases old : term ∈ context.terms.names
          · use added
            rw [hrecord, if_pos (List.mem_append_left _ old)]
            use rfl, distinct
            intro name
            rw [hadded, mem_done_record]
            grind
          · have hdistinct : (added ++ [term]).Nodup := by
              apply List.nodup_append.mpr ⟨distinct, by simp, _⟩
              rintro name hname _ hterm rfl
              apply fresh (List.mem_singleton.mp hterm ▸ hname)
            use added ++ [term]
            rw [hrecord, if_neg (by simp [old, fresh]), List.append_assoc]
            use rfl, hdistinct
            intro name
            rw [List.mem_append, hadded, mem_done_record, List.mem_singleton]
            grind

end Creation

/-- A context object sets the base and the vocabulary, and then a run defines its terms. -/
theorem Context.withObject_reaches {context result : Context} {declared : Entries Json}
    (distinct : declared.names.Nodup) (h : context.withObject declared = .ok result) :
  ∃ keyed final, context.withKeywords declared = .ok keyed
    ∧ Creation.Reaches declared ⟨keyed, []⟩ final
    ∧ (∀ name, name ∈ final.done ↔ name ∈ Creation.declaredTerms declared)
    ∧ final.context = result
  := by
  obtain ⟨keyed, hkeyed, hdeclare⟩ := bind_eq_ok.mp h
  obtain ⟨final, run, all, hresult⟩ := Creation.declare_reaches distinct hdeclare
  use keyed, final

end LinkedQuery
