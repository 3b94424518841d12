import LinkedQuery.Proofs.Context.Declaration
import LinkedQuery.Proofs.Reading.Order
import Mathlib.Tactic.Use

/-!
# Terms of a context object

What a context object makes of a context does not depend on the order of its entries:
`Context.process_reordered`.  A term that is mapped to a value gets the IRI that the value stands
for under the finished context, unless the value is a term that is not looked up:
`Context.mapping_iff`.
-/

namespace LinkedQuery

/-! ### The order of entries -/

namespace Creation

variable {declared declared' : Entries Json} {start state final : Creation}

/-- Whose turn it is does not depend on the order of the entries. -/
theorem Ready.perm {term : String} {value : Json} {defined : Definition}
    (ready : Ready declared state term value defined) (distinct : declared.names.Nodup)
    (h : declared'.Perm declared) :
  Ready declared' state term value defined
  where
  fresh := ready.fresh
  plain := ready.plain
  entry := (Entries.lookup_perm distinct h term).trans ready.entry
  known name hname hentry := ready.known name hname ((h.map Prod.fst).mem_iff.mp hentry)
  reads := ready.reads

theorem Reaches.perm (run : Reaches declared start final) (distinct : declared.names.Nodup)
    (h : declared'.Perm declared) :
  Reaches declared' start final
  := by
  apply Relation.ReflTransGen.mono _ _ _ run
  rintro _ _ ⟨ready⟩
  apply Step.record (ready.perm distinct h)

theorem mem_declaredTerms_perm (h : declared'.Perm declared) {name : String} :
  name ∈ declaredTerms declared' ↔ name ∈ declaredTerms declared
  := ((h.map Prod.fst).filter _).mem_iff

end Creation

namespace Context

/-- Contexts with one base and one vocabulary that define the same of each name. -/
structure Same (one other : Context) : Prop where
  base : one.base = other.base
  vocab : one.vocab = other.vocab
  definition? : ∀ name, one.definition? name = other.definition? name

section Perm

variable {context result : Context} {declared declared' : Entries Json}

/-- Terms can be declared in any order. -/
theorem declare_perm (distinct : declared.names.Nodup) (h : declared'.Perm declared)
    (hresult : context.declare declared = .ok result) :
  ∃ result', context.declare declared' = .ok result' ∧ Same result' result
  := by
  have distinct' : declared'.names.Nodup := (h.map Prod.fst).nodup_iff.mpr distinct
  obtain ⟨final, run, all, rfl⟩ := Creation.declare_reaches distinct hresult
  obtain ⟨result', hresult'⟩ := Creation.declare_complete distinct' (run.perm distinct h)
    fun name hname => (all name).mpr ((Creation.mem_declaredTerms_perm h).mp hname)
  obtain ⟨final', run', all', rfl⟩ := Creation.declare_reaches distinct' hresult'
  have first : Creation.Reaches declared' ⟨context, []⟩ final := run.perm distinct h
  have same : ∀ name, name ∈ final'.done ↔ name ∈ final.done := fun name => by
    rw [all', all, Creation.mem_declaredTerms_perm h]
  use final'.context, hresult'
  constructor
  · rw [run'.context_eq.1, first.context_eq.1]
  · rw [run'.context_eq.2, first.context_eq.2]
  · intro name
    by_cases hname : name ∈ final'.done
    · apply run'.agree first name hname ((same name).mp hname)
    · rw [run'.definition?_eq (.inr hname),
        first.definition?_eq (.inr fun hfinal => hname ((same name).mpr hfinal))]

theorem withKeywords_perm (distinct : declared.names.Nodup) (h : declared'.Perm declared) :
  context.withKeywords declared' = context.withKeywords declared
  := by
  simp only [withKeywords, Entries.lookup_perm distinct h]

/-- A context object that can be processed can be processed in another order, to the same end. -/
theorem process_perm (loader : Loader) (distinct : declared.names.Nodup)
    (h : declared'.Perm declared)
    (hresult : context.process loader (.object declared) = .ok result) :
  ∃ result', context.process loader (.object declared') = .ok result' ∧ Same result' result
  := by
  simp only [process, processWith, withObject, bind_eq_ok] at hresult ⊢
  obtain ⟨own, hown, hdeclare⟩ := hresult
  obtain ⟨result', hresult', same⟩ := declare_perm distinct h hdeclare
  use result'
  constructor
  · use own, (withKeywords_perm distinct h).trans hown
  · apply same

/-- The order of the entries of a context object decides neither whether it can be processed, nor
what comes of it. -/
theorem process_reordered (context : Context) (loader : Loader) (declared declared' : Entries Json)
    (distinct : (declared.map Prod.fst).Nodup) (h : declared'.Perm declared) :
  ((∃ result, context.process loader (.object declared) = .ok result)
      ↔ ∃ result, context.process loader (.object declared') = .ok result)
    ∧ ∀ result result', context.process loader (.object declared) = .ok result →
        context.process loader (.object declared') = .ok result' → Same result' result
  := by
  have distinct' : (declared'.map Prod.fst).Nodup := (h.map Prod.fst).nodup_iff.mpr distinct
  constructor
  · constructor
    · rintro ⟨result, hresult⟩
      obtain ⟨result', hresult', -⟩ := process_perm loader distinct h hresult
      use result'
    · rintro ⟨result', hresult'⟩
      obtain ⟨result, hresult, -⟩ := process_perm loader distinct' h.symm hresult'
      use result
  · intro result result' hresult hresult'
    obtain ⟨again, hagain, same⟩ := process_perm loader distinct h hresult
    obtain rfl : again = result' := by simpa [hagain] using hresult'
    apply same

end Perm

/-- The terms of a film, each of which refers to the one after it. -/
def filmTerms : Entries Json :=
  [("cast", .object [("@id", .string "film:cast"), ("@type", .string "person")]),
    ("person", .string "film:Person"), ("film", .string "root"), ("root", .string "http://films/")]

/-- The terms of a film can be declared backwards. -/
theorem process_reordered_film :
  ∃ result result',
    ({} : Context).process .disabled (.object filmTerms) = .ok result
    ∧ ({} : Context).process .disabled (.object filmTerms.reverse) = .ok result'
    ∧ (result.definition? "cast").bind (·.iri) = some "http://films/cast"
    ∧ Same result' result
  := by
  have houtcome : (({} : Context).process .disabled (.object filmTerms)).toOption.map
      (fun result => (result.definition? "cast").bind (·.iri))
        = some (some "http://films/cast") := by
    decide +kernel
  obtain ⟨result, hresult, hcast⟩ := exists_of_outcome _ _ houtcome
  obtain ⟨hsuccess, hsame⟩ := process_reordered {} .disabled filmTerms filmTerms.reverse
    (by decide) filmTerms.reverse_perm
  obtain ⟨result', hresult'⟩ := hsuccess.mp ⟨result, hresult⟩
  use result, result', hresult, hresult', hcast
  apply hsame result result' hresult hresult'

end Context

/-! ### What terms are mapped to -/

namespace Creation

/-- An entry that maps a term to a value, which is the entry itself or named by it. -/
inductive MapsTo (declared : Entries Json) (term value : String) : Prop where
  | plain (entry : declared.lookup term = some (.string value))
  | named {object : Entries Json} (entry : declared.lookup term = some (.object object))
      (forward : object.lookup Keyword.reverse.text = none)
      (id : object.lookup Keyword.id.text = some (.string value))

section MapsTo

variable {declared : Entries Json} {own : Context} {state final : Creation} {term name : String}
  {entry : Json} {defined : Definition}

/-- The value to which a term is mapped is resolved to the IRI of the term, and referred to. -/
theorem Ready.resolved (ready : Ready declared state term entry defined)
    (maps : MapsTo declared term name) :
  (∃ iri, resolved state.context term name = .ok iri ∧ defined.iri = some iri)
    ∧ ∀ other ∈ reference? term name, other ∈ references term entry
  := by
  have reads := ready.reads
  cases maps with
  | plain found =>
      obtain rfl : entry = .string name := by simpa using ready.entry.symm.trans found
      rw [entryDefinition_string, bind_eq_ok] at reads
      obtain ⟨iri, hiri, h⟩ := reads
      cases h
      constructor
      · use iri, hiri
      · intro other hother
        simpa [references] using hother
  | @named object found forward id =>
      obtain rfl : entry = .object object := by simpa using ready.entry.symm.trans found
      simp only [entryDefinition_object, mappingIn_id _ _ forward id, bind_eq_ok] at reads
      obtain ⟨_, ⟨iri, hiri, h⟩, _, _, _, _, h'⟩ := reads
      cases h
      cases h'
      constructor
      · use iri, hiri
      · intro other hother
        have hreference : mappingReference? term object = reference? term name := by
          rw [mappingReference?, forward, id]
        simp [references, hreference, Option.mem_def.mp hother]

end MapsTo

end Creation

namespace Context

/-- Whether a mapping to a value looks the value up: it is a term with an IRI, and neither a compact
nor an absolute IRI by its form. -/
def LooksUp (context : Context) (value : String) : Prop :=
  (context.termIri? value).isSome ∧ Iri.compact? value = none ∧ Iri.hasScheme value = false

/-- A value is resolved to what it stands for where its references have the same IRIs. -/
theorem resolved_iri {own context : Context} {term value iri : String}
    (vocab : context.vocab = own.vocab)
    (known : ∀ name ∈ Creation.reference? term value, context.termIri? name = own.termIri? name)
    (free : Keyword.isKeyword value = false)
    (foreign : ∀ suffix, Iri.compact? value ≠ some (term, suffix))
    (h : Creation.resolved own term value = .ok iri) :
  (context.LooksUp value → some iri = context.termIri? value)
    ∧ (¬ context.LooksUp value → some iri = context.expandReference? value true)
  := by
  simp only [Creation.resolved, free, Bool.false_eq_true, if_false] at h
  cases hcompact : Iri.compact? value with
  | some parts =>
      obtain ⟨lead, suffix⟩ := parts
      have hlead : lead ≠ term := by
        rintro rfl
        apply foreign suffix hcompact
      have heq := known lead (by simp [Creation.reference?, free, hcompact, hlead])
      simp only [hcompact, Except.ok.injEq] at h
      simp [LooksUp, expandReference?, hcompact, heq, ← h]
  | none =>
      cases hscheme : Iri.hasScheme value with
      | true =>
          simp only [hcompact, hscheme, if_true, Except.ok.injEq] at h
          simp [LooksUp, expandReference?, hcompact, hscheme, ← h]
      | false =>
          have heq := known value (by simp [Creation.reference?, free, hcompact, hscheme])
          simp only [hcompact, hscheme, Bool.false_eq_true, if_false, ← heq] at h
          cases hterm : context.termIri? value with
          | some found =>
              simp only [hterm, Except.ok.injEq] at h
              simp [LooksUp, hterm, hcompact, hscheme, h]
          | none =>
              cases hvocab : own.vocab with
              | none => simp [hterm, Creation.inVocab, hvocab] at h
              | some vocabulary =>
                  simp only [hterm, Creation.inVocab, hvocab, Except.ok.injEq] at h
                  simp [LooksUp, expandReference?, hterm, hcompact, hscheme, vocab, hvocab, h]

/-- The IRI of a term that is mapped to a value, in the finished context. -/
theorem mapped_iri {own context : Context} {declared : Entries Json}
    (distinct : declared.names.Nodup) (h : own.declare declared = .ok context)
    {term value : String} (maps : Creation.MapsTo declared term value)
    (plain : Keyword.isKeyword term = false) (free : Keyword.isKeyword value = false)
    (foreign : ∀ suffix, Iri.compact? value ≠ some (term, suffix)) :
  ∃ definition, context.definition? term = some definition
    ∧ (context.LooksUp value → definition.iri = context.termIri? value)
    ∧ (¬ context.LooksUp value → definition.iri = context.expandReference? value true)
  := by
  obtain ⟨final, run, all, rfl⟩ := Creation.declare_reaches distinct h
  have hentry : term ∈ declared.names := by
    cases maps with
    | plain found => apply Entries.mem_names_of_lookup found
    | named found _ _ => apply Entries.mem_names_of_lookup found
  have hdone : term ∈ final.done := (all term).mpr ((Creation.mem_declaredTerms plain).mpr hentry)
  obtain ⟨before, entry, defined, reached, ready, rest⟩ := run.history hdone (by simp)
  use defined
  constructor
  · rw [rest.definition?_eq (.inl ((Creation.mem_done_record _ _ _).mpr (.inl rfl))),
      Creation.definition?_record_self]
  · obtain ⟨⟨iri, hresolved, hiri⟩, hreference⟩ := ready.resolved maps
    have vocab := run.context_eq.2.trans (Creation.Reaches.context_eq reached).2.symm
    rw [hiri]
    apply resolved_iri vocab _ free foreign hresolved
    intro name hname
    apply ready.termIri?_eq reached rest (hreference name hname)

/-- A term that is mapped to a value has the IRI of the value if that is no term.  If it is one, the
two have the same IRI exactly when the value is looked up, or when its own IRI is what it would
be if it were no term. -/
theorem mapping_iff {own context : Context} {loader : Loader} {declared : Entries Json}
    (distinct : (declared.map Prod.fst).Nodup)
    (h : own.process loader (.object declared) = .ok context)
    {term value : String} (maps : Creation.MapsTo declared term value)
    (plain : Keyword.isKeyword term = false) (free : Keyword.isKeyword value = false)
    (foreign : ∀ suffix, Iri.compact? value ≠ some (term, suffix)) :
  ∃ definition, context.definition? term = some definition
    ∧ (context.definition? value = none → definition.iri = context.expand? value true)
    ∧ ∀ other, context.definition? value = some other →
        (definition.iri = other.iri
          ↔ context.LooksUp value ∨ other.iri = context.expandReference? value true)
  := by
  simp only [process, processWith, withObject, bind_eq_ok] at h
  obtain ⟨keyed, -, hdeclare⟩ := h
  obtain ⟨definition, hdefinition, looked, unlooked⟩ :=
    mapped_iri distinct hdeclare maps plain free foreign
  use definition, hdefinition
  constructor
  · intro hnone
    have hterm : ¬ context.LooksUp value := fun h => by simpa [termIri?, hnone] using h.1
    simp [unlooked hterm, expand?, free, hnone]
  · intro other hother
    by_cases hterm : context.LooksUp value
    · obtain ⟨iri, hiri⟩ := Option.isSome_iff_exists.mp hterm.1
      have heq := (Option.filter_eq_some_iff.mp hiri).1
      rw [hother, Option.bind_some] at heq
      apply iff_of_true ((looked hterm).trans (hiri.trans heq.symm)) (.inl hterm)
    · rw [unlooked hterm]
      constructor
      · intro h
        apply Or.inr h.symm
      · intro h
        apply (h.resolve_left hterm).symm

/-- Terms of which two are other words for what the ones before them stand for. -/
def wordTerms : Entries Json :=
  [("@vocab", .string "http://words/"), ("called", .string "@id"), ("label", .string "called"),
    ("name", .string "schema:name"), ("title", .string "name")]

/-- Another word for a property has the IRI of the property. -/
theorem mapping_iff_title :
  ∃ context definition other,
    ({} : Context).process .disabled (.object wordTerms) = .ok context
    ∧ context.definition? "title" = some definition ∧ context.definition? "name" = some other
    ∧ other.iri = some "schema:name" ∧ definition.iri = other.iri
  := by
  have houtcome : (({} : Context).process .disabled (.object wordTerms)).toOption.map
      (fun context => (context.definition? "name").map (·.iri))
        = some (some (some "schema:name")) := by
    decide +kernel
  obtain ⟨context, h, hname⟩ := exists_of_outcome _ _ houtcome
  obtain ⟨other, hother, hiri⟩ := Option.map_eq_some_iff.mp hname
  have hcompact : Iri.compact? "name" = none := by decide
  have maps : Creation.MapsTo wordTerms "title" "name" := .plain rfl
  obtain ⟨definition, hdefinition, -, hmapping⟩ := mapping_iff (by decide) h maps (by decide)
    (by decide) (by simp [hcompact])
  have hplain : Keyword.isKeyword "schema:name" = false := by decide
  use context, definition, other, h, hdefinition, hother, hiri
  apply (hmapping other hother).mpr
  apply Or.inl
  use by simp [termIri?, hother, hiri, hplain], hcompact
  decide

/-- Another word for a word for a keyword has an IRI of the vocabulary, and is no word for the
keyword. -/
theorem mapping_unlike_label :
  ∃ context definition other,
    ({} : Context).process .disabled (.object wordTerms) = .ok context
    ∧ wordTerms.lookup "label" = some (.string "called")
    ∧ context.definition? "label" = some definition ∧ context.definition? "called" = some other
    ∧ definition.iri = some "http://words/called" ∧ other.iri = some "@id"
    ∧ definition.iri ≠ other.iri
  := by
  have houtcome : (({} : Context).process .disabled (.object wordTerms)).toOption.map
      (fun context => ((context.definition? "label").map (·.iri),
        (context.definition? "called").map (·.iri)))
        = some (some (some "http://words/called"), some (some "@id")) := by
    decide +kernel
  obtain ⟨context, h, heq⟩ := exists_of_outcome _ _ houtcome
  obtain ⟨hlabel, hcalled⟩ := Prod.mk.inj heq
  obtain ⟨definition, hdefinition, hiri⟩ := Option.map_eq_some_iff.mp hlabel
  obtain ⟨other, hother, hiri'⟩ := Option.map_eq_some_iff.mp hcalled
  use context, definition, other, h, rfl, hdefinition, hother, hiri, hiri'
  simp [hiri, hiri']

end Context

end LinkedQuery
