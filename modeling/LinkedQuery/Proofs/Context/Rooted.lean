import LinkedQuery.Proofs.Context.Layers
import Mathlib.Tactic.ByContra

/-!
# Contexts whose IRIs have schemes

Where the base, the vocabulary and the terms have schemes, so has everything that is made of them.
What has none has been left as it is: a value with the form of a compact IRI that strays
(`Context.Strays`), a text that becomes the vocabulary (`Context.Leaves`), or the text of a term
that dangles (`Creation.Dangles`).
-/

namespace LinkedQuery

namespace Context

/-! ### Values -/

/-- Whether a value has the form of a compact IRI, and neither a scheme nor a term stands before its
colon.  Where terms are looked up, it is none itself. -/
structure Strays (context : Context) (value : String) (inVocab : Bool) : Prop where
  compact : ∃ lead suffix, Iri.compact? value = some (lead, suffix) ∧ context.termIri? lead = none
  schemeless : Iri.hasScheme value = false
  unknown : inVocab = true → context.termIri? value = none

/-- Whether the vocabulary and the terms of a context have schemes. -/
structure Rooted (context : Context) : Prop where
  vocab : ∀ iri, context.vocab = some iri → Iri.hasScheme iri = true
  term : ∀ name iri, context.termIri? name = some iri → Iri.hasScheme iri = true

/-- Whether all values but those that stray are expanded to IRIs with schemes. -/
def ExpandsAbsolutely (context : Context) : Prop :=
  ∀ value inVocab iri, context.expand? value inVocab = some iri →
    (Iri.hasScheme iri = true ↔ ¬ context.Strays value inVocab)

section Values

variable {context : Context} {value iri : String} {inVocab : Bool}

/-- A value is expanded to the IRI of the term that it is, or else as a reference. -/
theorem expand?_cases (h : context.expand? value inVocab = some iri) :
  (inVocab = true ∧ context.termIri? value = some iri)
    ∨ ((inVocab = true → context.termIri? value = none)
      ∧ context.expandReference? value inVocab = some iri)
  := by
  unfold expand? at h
  cases hkeyword : Keyword.isKeyword value with
  | true => simp [hkeyword] at h
  | false =>
      cases inVocab with
      | false => exact .inr ⟨by simp, by simpa [hkeyword] using h⟩
      | true =>
          cases hown : (context.definition? value).bind (·.iri) with
          | none => exact .inr ⟨by simp [termIri?, hown], by simpa [hkeyword, hown] using h⟩
          | some own =>
              simp only [hkeyword, hown, Bool.false_eq_true, if_false] at h
              split at h
              · cases h
              · cases h
                exact .inl ⟨rfl, by simp_all [termIri?]⟩

/-- A value that strays is left as it is. -/
theorem Strays.expand?_eq (strays : context.Strays value inVocab)
    (h : context.expand? value inVocab = some iri) :
  iri = value
  := by
  obtain ⟨lead, suffix, hcompact, hlead⟩ := strays.compact
  obtain ⟨hvocab, hterm⟩ | ⟨-, hreference⟩ := expand?_cases h
  · cases (strays.unknown hvocab).symm.trans hterm
  · simpa [expandReference?, hcompact, hlead, eq_comm] using hreference

/-- Where the vocabulary and the terms have schemes, other values are expanded to IRIs with
schemes. -/
theorem Rooted.hasScheme_expand? (rooted : context.Rooted)
    (h : context.expand? value inVocab = some iri) (tied : ¬ context.Strays value inVocab) :
  Iri.hasScheme iri = true
  := by
  obtain ⟨-, hterm⟩ | ⟨unknown, hreference⟩ := expand?_cases h
  · apply rooted.term value iri hterm
  · cases hcompact : Iri.compact? value with
    | some parts =>
        obtain ⟨lead, suffix⟩ := parts
        cases hlead : context.termIri? lead with
        | some own =>
            obtain rfl : own ++ suffix = iri := by
              simpa [expandReference?, hcompact, hlead] using hreference
            apply Iri.hasScheme_append (rooted.term lead own hlead)
        | none =>
            obtain rfl : value = iri := by
              simpa [expandReference?, hcompact, hlead] using hreference
            by_contra hscheme
            exact tied ⟨⟨lead, suffix, hcompact, hlead⟩, by simpa using hscheme, unknown⟩
    | none =>
        simp only [expandReference?, hcompact] at hreference
        split at hreference
        · cases hreference
          assumption
        · split at hreference
          · rename_i vocab hvocab
            cases hreference
            apply Iri.hasScheme_append (rooted.vocab vocab hvocab)
          · obtain ⟨base, -, hresolved⟩ := Option.bind_eq_some_iff.mp hreference
            apply Iri.hasScheme_resolve? hresolved

theorem Rooted.expandsAbsolutely (rooted : context.Rooted) :
  context.ExpandsAbsolutely
  := by
  intro value inVocab iri h
  constructor
  · intro hscheme strays
    rw [strays.expand?_eq h, strays.schemeless] at hscheme
    cases hscheme
  · exact rooted.hasScheme_expand? h

end Values

/-! ### Vocabularies -/

/-- Whether a context leaves a text without a scheme as it is when it becomes the vocabulary. -/
inductive Leaves (context : Context) (text : String) : Prop where
  /-- A relative text that stands under neither a vocabulary nor a base. -/
  | relative (named : text ≠ "") (simple : Iri.compact? text = none)
      (schemeless : Iri.hasScheme text = false) (unworded : context.vocab = none)
      (unbased : context.base = none)
  /-- A compact IRI that is expanded to nothing but itself. -/
  | compact (compact : (Iri.compact? text).isSome) (schemeless : Iri.hasScheme text = false)
      (alone : ∀ iri, context.expand? text true = some iri → iri = text)

section Vocabularies

variable {context : Context} {text iri : String}

theorem Leaves.schemeless (leaves : context.Leaves text) :
  Iri.hasScheme text = false
  := by
  cases leaves with
  | relative _ _ schemeless => apply schemeless
  | compact _ schemeless => apply schemeless

theorem Leaves.vocabOf_eq (leaves : context.Leaves text) :
  context.vocabOf text = some text
  := by
  cases leaves with
  | relative named simple schemeless unworded unbased =>
      simp [vocabOf, named, simple, schemeless, unworded, unbased]
  | compact compact schemeless alone =>
      have named : text ≠ "" := by
        rintro rfl
        cases compact
      have hexpanded : (context.expand? text true).getD text = text := by
        cases h : context.expand? text true with
        | none => rfl
        | some iri => exact alone iri h
      simp [vocabOf, named, compact, hexpanded]

/-- Where the base, the vocabulary and the terms have schemes, a text makes a vocabulary with a
scheme unless it is left as it is. -/
theorem Rooted.hasScheme_vocabOf (rooted : context.Rooted) (regular : context.Regular)
    (h : context.vocabOf text = some iri) (changed : ¬ context.Leaves text) :
  Iri.hasScheme iri = true
  := by
  rw [vocabOf] at h
  split at h
  · apply regular.base iri h
  · rename_i named
    split at h
    · rename_i formed
      by_contra hscheme
      obtain ⟨alone, schemeless⟩ :
          (∀ own, context.expand? text true = some own → own = text)
            ∧ Iri.hasScheme text = false := by
        cases hexpanded : context.expand? text true with
        | none =>
            obtain rfl : text = iri := by simpa [hexpanded] using h
            exact ⟨by simp, by simpa using hscheme⟩
        | some own =>
            obtain rfl : own = iri := by simpa [hexpanded] using h
            -- What has no scheme was left as it is, so the text strays.
            have strays : context.Strays text true := by
              by_contra tied
              exact hscheme (rooted.hasScheme_expand? hexpanded tied)
            exact ⟨by simpa using strays.expand?_eq hexpanded, strays.schemeless⟩
      exact changed (.compact (by simpa [schemeless] using formed) schemeless alone)
    · rename_i unformed
      obtain ⟨simple, schemeless⟩ : Iri.compact? text = none ∧ Iri.hasScheme text = false := by
        simpa using unformed
      cases hvocab : context.vocab with
      | some vocab =>
          obtain rfl : vocab ++ text = iri := by simpa [hvocab] using h
          apply Iri.hasScheme_append (rooted.vocab vocab hvocab)
      | none =>
          cases hbase : context.base with
          | some base => exact Iri.hasScheme_resolve? (by simpa [hvocab, hbase] using h)
          | none => exact absurd (.relative named simple schemeless hvocab hbase) changed

section Keywords

variable {keyed : Context} {declared : Entries Json}

/-- A vocabulary that is left as it is under the base of its object is the vocabulary then. -/
theorem Leaves.vocab_eq (leaves : Leaves { context with base := keyed.base } text)
    (h : context.withKeywords declared = .ok keyed)
    (entry : declared.lookup Keyword.vocab.text = some (.string text)) :
  keyed.vocab = some text
  := by
  rw [withKeywords_vocab h entry, Json.string?, Option.bind_some, leaves.vocabOf_eq]

/-- Unless the vocabulary is left as it is, the entries that declare no terms keep the schemes. -/
theorem Rooted.withKeywords (rooted : context.Rooted) (regular : context.Regular)
    (h : context.withKeywords declared = .ok keyed)
    (tight : ∀ text, declared.lookup Keyword.vocab.text = some (.string text) →
      ¬ Leaves { context with base := keyed.base } text) :
  keyed.Rooted
  := by
  obtain ⟨terms, -, unchanged⟩ := withKeywords_frame h
  constructor
  · intro iri hiri
    cases entry : declared.lookup Keyword.vocab.text with
    | none =>
        rw [unchanged entry] at hiri
        apply rooted.vocab iri hiri
    | some value =>
        rw [withKeywords_vocab h entry] at hiri
        obtain ⟨text, hvalue, hiri⟩ := Option.bind_eq_some_iff.mp hiri
        obtain rfl : value = .string text := by
          cases value <;> simp_all [Json.string?]
        have under : Rooted { context with base := keyed.base } := ⟨rooted.vocab, rooted.term⟩
        apply under.hasScheme_vocabOf _ hiri (tight text entry)
        exact ⟨(regular.withKeywords h).base, regular.plain⟩
  · intro name iri hiri
    rw [termIri?, definition?, terms] at hiri
    apply rooted.term name iri hiri

end Keywords

end Vocabularies

end Context

/-! ### Terms -/

namespace Creation

/-- The text to which an object maps a term. -/
def objectText? (term : String) (object : Entries Json) : Option String :=
  match object.lookup Keyword.reverse.text with
  | some reversed => reversed.string?
  | none =>
    match object.lookup Keyword.id.text with
    | some named => named.string?
    | none => some term

/-- The text to which an entry maps a term. -/
def mappedText? (term : String) : Json → Option String
  | .string text => some text
  | .object object => objectText? term object
  | _ => none

/-- What becomes of the text to which a term is mapped: it is resolved, or put behind the
vocabulary. -/
inductive Mapped (context : Context) (term : String) : Option String → Option String → Prop where
  | unmapped : Mapped context term none none
  | resolved {text iri : String} (h : resolved context term text = .ok iri) :
      Mapped context term (some text) (some iri)
  | word {text vocab : String} (simple : Iri.compact? text = none)
      (h : context.vocab = some vocab) : Mapped context term (some text) (some (vocab ++ text))

section Mappings

variable {context : Context} {term text iri : String} {object : Entries Json} {value : Json}
  {defined : Definition}

theorem mappingIn_mapped (h : mappingIn context term object = .ok defined) :
  Mapped context term (objectText? term object) defined.iri
  := by
  cases hreverse : object.lookup Keyword.reverse.text with
  | some reversed =>
      cases reversed with
      | string text =>
          rw [mappingIn_reverse _ _ hreverse, bind_eq_ok] at h
          obtain ⟨iri, hiri, ⟨⟩⟩ := h
          simpa [objectText?, hreverse, Json.string?] using Mapped.resolved hiri
      | _ => simp [mappingIn, mapping, hreverse, Except.map] at h
  | none =>
      cases hid : object.lookup Keyword.id.text with
      | some named =>
          cases named with
          | null =>
              obtain rfl : {} = defined := by
                simpa [mappingIn, mapping, hreverse, hid, Except.map] using h
              simpa [objectText?, hreverse, hid, Json.string?] using Mapped.unmapped
          | string text =>
              rw [mappingIn_id _ _ hreverse hid, bind_eq_ok] at h
              obtain ⟨iri, hiri, ⟨⟩⟩ := h
              simpa [objectText?, hreverse, hid, Json.string?] using Mapped.resolved hiri
          | _ => simp [mappingIn, mapping, hreverse, hid, Except.map] at h
      | none =>
          rw [mappingIn_itself _ _ hreverse hid, bind_eq_ok] at h
          obtain ⟨iri, hiri, ⟨⟩⟩ := h
          simp only [objectText?, hreverse, hid]
          split at hiri
          · apply Mapped.resolved hiri
          · rename_i unformed
            obtain ⟨simple, -⟩ : Iri.compact? term = none ∧ Iri.hasScheme term = false := by
              simpa using unformed
            unfold inVocab at hiri
            split at hiri
            · cases hiri
              apply Mapped.word simple ‹_›
            · cases hiri

theorem entryDefinition_mapped (reads : entryDefinition context term value = .ok defined) :
  Mapped context term (mappedText? term value) defined.iri
  := by
  cases value with
  | null =>
      rw [entryDefinition_null] at reads
      cases reads
      apply Mapped.unmapped
  | string text =>
      rw [entryDefinition_string, bind_eq_ok] at reads
      obtain ⟨iri, hiri, ⟨⟩⟩ := reads
      apply Mapped.resolved hiri
  | object object =>
      rw [entryDefinition_object] at reads
      simp only [bind_eq_ok] at reads
      obtain ⟨mapped, hmapped, _, -, _, -, ⟨⟩⟩ := reads
      apply mappingIn_mapped hmapped
  | _ => simp [entryDefinition, definition, Except.map] at reads

/-- A compact IRI is left as it is, if its lead is no term. -/
theorem Mapped.eq_text {iri? : Option String} (mapped : Mapped context term (some text) iri?)
    {lead suffix : String} (compact : Iri.compact? text = some (lead, suffix))
    (unknown : context.termIri? lead = none) :
  iri? = some text
  := by
  cases mapped with
  | resolved h =>
      unfold Creation.resolved at h
      split at h
      · cases h
        rfl
      · simpa [compact, unknown, eq_comm] using h
  | word simple => cases simple.symm.trans compact

/-- Where the vocabulary and the terms have schemes, a term gets an IRI with a scheme, unless its
text is left as it is. -/
theorem Mapped.hasScheme (rooted : context.Rooted) {text? : Option String}
    (mapped : Mapped context term text? (some iri)) (free : Keyword.isKeyword iri = false) :
  Iri.hasScheme iri = true
    ∨ text? = some iri
      ∧ ∃ lead suffix, Iri.compact? iri = some (lead, suffix) ∧ context.termIri? lead = none
  := by
  cases mapped with
  | word _ h => exact .inl (Iri.hasScheme_append (rooted.vocab _ h) _)
  | @resolved text _ h =>
      unfold Creation.resolved at h
      split at h
      · cases h
        simp_all
      · split at h
        · rename_i lead suffix hcompact
          cases hlead : context.termIri? lead with
          | some own =>
              obtain rfl : own ++ suffix = iri := by simpa [hlead] using h
              exact .inl (Iri.hasScheme_append (rooted.term lead own hlead) suffix)
          | none =>
              obtain rfl : text = iri := by simpa [hlead] using h
              exact .inr ⟨rfl, lead, suffix, hcompact, hlead⟩
        · split at h
          · cases h
            exact .inl ‹_›
          · cases hterm : context.termIri? text with
            | some own =>
                obtain rfl : own = iri := by simpa [hterm] using h
                exact .inl (rooted.term text own hterm)
            | none =>
                cases hvocab : context.vocab with
                | some vocab =>
                    obtain rfl : vocab ++ text = iri := by
                      simpa [hterm, inVocab, hvocab] using h
                    exact .inl (Iri.hasScheme_append (rooted.vocab vocab hvocab) text)
                | none => simp [hterm, inVocab, hvocab] at h

end Mappings

/-- Whether a term is mapped to a text of the form of a compact IRI, and neither a scheme nor a term
stands before its colon.  The term itself counts there as it was before. -/
structure Dangles (declared : Entries Json) (before after : Context) (term text : String) :
    Prop where
  plain : Keyword.isKeyword term = false
  mapped : ∃ value, declared.lookup term = some value ∧ mappedText? term value = some text
  schemeless : Iri.hasScheme text = false
  compact : ∃ lead suffix, Iri.compact? text = some (lead, suffix)
    ∧ (if lead = term then before else after).termIri? lead = none

/-- Terms dangle alike on top of the same terms. -/
theorem Dangles.congr {declared : Entries Json} {before before' after : Context}
    {term text : String} (dangles : Dangles declared before after term text)
    (same : ∀ name, before.termIri? name = before'.termIri? name) :
  Dangles declared before' after term text
  where
  plain := dangles.plain
  mapped := dangles.mapped
  schemeless := dangles.schemeless
  compact := by
    obtain ⟨lead, suffix, compact, unknown⟩ := dangles.compact
    use lead, suffix, compact
    split at unknown
    · rw [if_pos ‹_›, ← same, unknown]
    · rw [if_neg ‹_›, unknown]

/-- A compact IRI is no keyword. -/
theorem isKeyword_of_compact? {text lead suffix : String}
    (compact : Iri.compact? text = some (lead, suffix)) :
  Keyword.isKeyword text = false
  := by
  cases hkeyword : Keyword.ofText? text with
  | none => simp [Keyword.isKeyword, hkeyword]
  | some keyword =>
      obtain rfl := Keyword.text_eq_of_ofText? hkeyword
      cases keyword <;> cases compact

/-- An entry refers to the lead of the text to which it maps a term. -/
theorem mem_references_of_compact? {term text lead suffix : String} {value : Json}
    (mapped : mappedText? term value = some text)
    (compact : Iri.compact? text = some (lead, suffix)) (foreign : lead ≠ term) :
  lead ∈ references term value
  := by
  have hreference : reference? term text = some lead := by
    simp [reference?, isKeyword_of_compact? compact, compact, foreign]
  cases value with
  | string other =>
      obtain rfl : other = text := Option.some.inj mapped
      simp [references, hreference]
  | object object =>
      have hmapping : mappingReference? term object = some lead := by
        rw [mappedText?, objectText?] at mapped
        rw [mappingReference?]
        cases hreverse : object.lookup Keyword.reverse.text with
        | some reversed =>
            cases reversed with
            | string other => simp_all [Json.string?]
            | _ => simp [hreverse, Json.string?] at mapped
        | none =>
            cases hid : object.lookup Keyword.id.text with
            | some named =>
                cases named with
                | string other => simp_all [Json.string?]
                | _ => simp [hreverse, hid, Json.string?] at mapped
            | none => simp_all
      simp [references, hmapping]
  | _ => cases mapped

section Runs

variable {declared : Entries Json} {start : Context} {state final : Creation}
  {term text lead suffix : String} {value : Json} {defined : Definition}

/-- At its turn an entry finds the lead of its text as it is in the end, or as it was before if that
is the term itself. -/
theorem Ready.lead_eq (ready : Ready declared state term value defined)
    (reached : Reaches declared ⟨start, []⟩ state)
    (rest : Reaches declared (state.record term defined) final)
    (mapped : mappedText? term value = some text)
    (compact : Iri.compact? text = some (lead, suffix)) :
  state.context.termIri? lead
    = (if lead = term then start else final.context).termIri? lead
  := by
  split
  · subst lead
    rw [Context.termIri?, Context.termIri?, reached.definition?_eq (.inr ready.fresh)]
  · rename_i foreign
    exact (ready.termIri?_eq reached rest (mem_references_of_compact? mapped compact foreign)).symm

/-- A run on top of a vocabulary and terms with schemes defines terms with schemes, unless one
dangles. -/
theorem Reaches.rooted (run : Reaches declared ⟨start, []⟩ state)
    (rest : Reaches declared state final) (rooted : start.Rooted)
    (tight : ∀ term text, ¬ Dangles declared start final.context term text) :
  state.context.Rooted
  := by
  induction run with
  | refl => apply rooted
  | @tail before _ run step ih =>
      have earlier := ih (.head step rest)
      cases step with
      | @record term value defined ready =>
          constructor
          · apply earlier.vocab
          · intro name iri hiri
            by_cases hname : name = term
            · subst hname
              obtain ⟨hdefined, free⟩ : defined.iri = some iri ∧ Keyword.isKeyword iri = false := by
                simpa [Context.termIri?, definition?_record_self, Option.filter_eq_some_iff]
                  using hiri
              have mapped := entryDefinition_mapped ready.reads
              rw [hdefined] at mapped
              obtain hscheme | ⟨htext, lead, suffix, compact, unknown⟩ :=
                mapped.hasScheme earlier free
              · apply hscheme
              · by_contra schemeless
                rw [ready.lead_eq run rest htext compact] at unknown
                exact tight name iri ⟨ready.plain, ⟨value, ready.entry, htext⟩,
                  by simpa using schemeless, lead, suffix, compact, unknown⟩
            · apply earlier.term name iri
              rwa [Context.termIri?, definition?_record_of_ne _ _ _ hname] at hiri

/-- A term that dangles has its text for its IRI. -/
theorem Dangles.termIri?_eq (run : Reaches declared ⟨start, []⟩ final)
    (all : ∀ name, name ∈ final.done ↔ name ∈ declaredTerms declared)
    (dangles : Dangles declared start final.context term text) :
  final.context.termIri? term = some text
  := by
  obtain ⟨value, entry, mapped⟩ := dangles.mapped
  obtain ⟨lead, suffix, compact, unknown⟩ := dangles.compact
  have hdone : term ∈ final.done := by
    apply (all term).mpr
    apply (mem_declaredTerms dangles.plain).mpr (Entries.mem_names_of_lookup entry)
  obtain ⟨before, value', defined, reached, ready, rest⟩ := run.history hdone (by simp)
  obtain rfl : value = value' := by simpa using entry.symm.trans ready.entry
  rw [← ready.lead_eq reached rest mapped compact] at unknown
  have hiri := entryDefinition_mapped ready.reads
  rw [mapped] at hiri
  have kept := rest.definition?_eq (.inl ((mem_done_record _ _ _).mpr (.inl rfl)))
  rw [Context.termIri?, kept, definition?_record_self, Option.bind_some,
    hiri.eq_text compact unknown, Option.filter_some, isKeyword_of_compact? compact]
  rfl

end Runs

end Creation

end LinkedQuery
