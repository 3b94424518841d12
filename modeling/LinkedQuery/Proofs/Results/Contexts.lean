import LinkedQuery.Proofs.Context.Cycles
import LinkedQuery.Proofs.Context.Inlining
import LinkedQuery.Proofs.Reading.Log
import Mathlib.Tactic.Use

/-!
# Processing contexts

Terms may refer to each other and documents to further documents, and both come to an end.  Terms on
a cycle are refused, and nothing else is refused for a cycle (`process_cycles`).  Documents are
processed like what they stand for, up to a depth (`process_remote`).  In the context that is made,
a key that stands for a property is expanded to it as a value; a key that stands for nothing is not
left out then, if it could be the name of something else (`expand_meaning`).
-/

namespace LinkedQuery

namespace Context

/-! ### Cycles -/

theorem checkKeywords_cyclic {declared : Entries Json} {name : String} :
  checkKeywords declared ≠ .error (.cyclicIriMapping name)
  := by
  unfold checkKeywords
  cases declared.lookup Keyword.version.text with
  | none => cases (declared.lookup Keyword.importing.text).isSome <;> rintro ⟨⟩
  | some version =>
      dsimp only
      cases isSupportedVersion version
      · rintro ⟨⟩
      · cases (declared.lookup Keyword.importing.text).isSome <;> rintro ⟨⟩

/-- Entries that declare no terms are refused for no cycle. -/
theorem withKeywords_cyclic {context : Context} {declared : Entries Json} {name : String} :
  context.withKeywords declared ≠ .error (.cyclicIriMapping name)
  := by
  intro h
  rw [withKeywords_eq] at h
  obtain h | ⟨_, -, h⟩ := bind_eq_error.mp h
  · apply checkKeywords_cyclic h
  · obtain h | ⟨_, -, h⟩ := bind_eq_error.mp h
    · unfold withBase at h
      split at h
      · cases h
      · cases h
      · split at h
        · cases h
        · split at h <;> cases h
      · cases h
    · unfold withVocab at h
      split at h <;> cases h

/-- The terms of an object are opened to no more levels than it has entries, and one.  An object is
refused if a term is on a cycle of references, and is refused for a cycle only then. -/
theorem process_cycles (context : Context) (loader : Loader) (declared : Entries Json)
    (distinct : (declared.map Prod.fst).Nodup) :
  (∀ own deeper,
      Creation.declareNested declared deeper (declared.length + 1) own = own.declare declared)
    ∧ ((∃ term ∈ Creation.declaredTerms declared,
          Relation.TransGen (Creation.Refers declared) term term) →
        ∃ fault, context.process loader (.object declared) = .error fault)
    ∧ ((¬ ∃ term ∈ Creation.declaredTerms declared,
          Relation.TransGen (Creation.Refers declared) term term) →
        ∀ name, context.process loader (.object declared) ≠ .error (.cyclicIriMapping name))
  := by
  apply And.intro fun own deeper => Creation.declareNested_eq distinct deeper own
  constructor
  · rintro ⟨term, entry, cycle⟩
    cases h : context.process loader (.object declared) with
    | error fault => use fault
    | ok result =>
        obtain ⟨keyed, -, hdeclare⟩ := bind_eq_ok.mp h
        obtain ⟨final, run, all, -⟩ := Creation.declare_reaches distinct hdeclare
        have hacyclic := run.acyclic rfl ((all term).mpr entry)
        contradiction
  · intro acyclic name h
    obtain h | ⟨keyed, -, hdeclare⟩ := bind_eq_error.mp h
    · apply withKeywords_cyclic h
    · apply acyclic (Creation.declare_cyclic hdeclare)

/-- Terms of which two need each other, one as the lead of a compact IRI and one by its name. -/
def tangledTerms : Entries Json :=
  [("author", .object [("@id", .string "people:author"), ("@type", .string "person")]),
    ("person", .string "people:Person"), ("people", .string "author")]

/-- Terms of which one is the lead in its own value, and the lead in the type of the other. -/
def orderedTerms : Entries Json :=
  [("name", .object [("@type", .string "people:Name")]), ("people", .string "people:all")]

/-- Tangled terms are refused, ordered ones not for a cycle. -/
theorem process_cycles_people :
  (∃ fault, ({} : Context).process .disabled (.object tangledTerms) = .error fault)
    ∧ ∀ name, ({} : Context).process .disabled (.object orderedTerms)
        ≠ .error (.cyclicIriMapping name)
  := by
  obtain ⟨-, refused, -⟩ := process_cycles {} .disabled tangledTerms (by decide)
  obtain ⟨-, -, accepted⟩ := process_cycles {} .disabled orderedTerms (by decide)
  constructor
  · apply refused
    have first : Creation.Refers tangledTerms "author" "people" :=
      Creation.refers_iff.mpr ⟨_, rfl, by decide, by decide⟩
    have second : Creation.Refers tangledTerms "people" "author" :=
      Creation.refers_iff.mpr ⟨_, rfl, by decide, by decide⟩
    use "author", by decide
    apply Relation.TransGen.head first (.single second)
  · apply accepted
    have only {term other : String} (refers : Creation.Refers orderedTerms term other) :
        term = "name" ∧ other = "people" := by
      obtain ⟨entry, hentry, hother, -⟩ := Creation.refers_iff.mp refers
      have typed : Creation.references "name" (.object [("@type", .string "people:Name")])
          = ["people"] := by
        decide
      have exempt : Creation.references "people" (.string "people:all") = [] := by
        decide
      obtain rfl | rfl : term = "name" ∨ term = "people" := by
        simpa [orderedTerms, Entries.names] using Entries.mem_names_of_lookup hentry
      · cases hentry
        use rfl
        simpa [typed] using hother
      · cases hentry
        simp [exempt] at hother
    rintro ⟨term, -, cycle⟩
    obtain ⟨other, refers, back⟩ := Relation.TransGen.head'_iff.mp cycle
    obtain ⟨rfl, rfl⟩ := only refers
    obtain h | ⟨further, refers, -⟩ := Relation.ReflTransGen.cases_head back
    · simp at h
    · simpa using (only refers).1

/-- Entries that declare no terms. -/
def writingEntries : Entries Json :=
  [("@language", .string "@direction:en"), ("@direction", .string "@language:ltr")]

/-- Entries that declare no terms may refer to each other. -/
theorem process_cycles_writing :
  Relation.TransGen (Creation.Refers writingEntries) "@language" "@language"
    ∧ ∃ result, ({} : Context).process .disabled (.object writingEntries) = .ok result
  := by
  have first : Creation.Refers writingEntries "@language" "@direction" :=
    Creation.refers_iff.mpr ⟨_, rfl, by decide, by decide⟩
  have second : Creation.Refers writingEntries "@direction" "@language" :=
    Creation.refers_iff.mpr ⟨_, rfl, by decide, by decide⟩
  use .head first (.single second)
  use {}
  rfl

/-! ### Documents -/

/-- A local context is processed to an end, whatever documents there are.  Without a base it is
processed like the local context with every string replaced by the context of its document, if all
documents are there and no chain of strings is longer than sixteen, and fails if one is. -/
theorem process_remote (context : Context) (loader : Loader) (declared : Json) :
  (∀ outcome, Evaluates loader 0 context declared outcome
      ↔ context.process loader declared = outcome)
    ∧ (context.base = none → LeavesBase loader declared →
        (Complete loader declared → Within loader 16 declared →
          (∃ inlined, Inlines loader declared inlined)
            ∧ ∀ inlined other, Inlines loader declared inlined →
                context.process loader declared = context.process other inlined)
        ∧ ∀ chain, Chain loader declared chain → 16 < chain.length →
            ∃ fault, context.process loader declared = .error fault)
  := by
  apply And.intro fun outcome => evaluates_iff
  intro based leaves
  constructor
  · intro complete within
    apply And.intro (complete.exists_inlines within)
    intro inlined other inlines
    apply processWith_inlined (follow_inlined greatestDepth) (follow_baseless greatestDepth) _
      declared inlined context inlines within leaves based
  · intro chain linked long
    apply linked.fails long leaves based

/-- Documents of which the first refers to the second, and the third to itself. -/
def wordDocuments : Entries Json :=
  [("http://words/all", .object [("@context", .array
      [.string "http://words/names", .object [("@vocab", .string "http://words/")]])]),
    ("http://words/names", .object [("@context", .object
      [("name", .string "http://words/name")])]),
    ("http://words/self", .object [("@context", .array [.string "http://words/self"])])]

/-- A document that refers to another is processed like both; one that refers to itself fails. -/
theorem process_remote_words :
  ({} : Context).process (.ofDocuments wordDocuments) (.string "http://words/all")
      = ({} : Context).process .disabled (.array [.object [("name", .string "http://words/name")],
          .object [("@vocab", .string "http://words/")]])
    ∧ ∃ fault, ({} : Context).process (.ofDocuments wordDocuments) (.string "http://words/self")
        = .error fault
  := by
  have all : (Loader.ofDocuments wordDocuments).Yields "http://words/all" _ := ⟨_, rfl, rfl⟩
  have names : (Loader.ofDocuments wordDocuments).Yields "http://words/names" _ := ⟨_, rfl, rfl⟩
  have self : (Loader.ofDocuments wordDocuments).Yields "http://words/self" _ := ⟨_, rfl, rfl⟩
  constructor
  · have leaves : LeavesBase (.ofDocuments wordDocuments) (.string "http://words/all") := by
      rw [leavesBase_string all, leavesBase_array]
      simp [leavesBase_string names, leavesBase_object, Keyword.text]
    have complete : Complete (.ofDocuments wordDocuments) (.string "http://words/all") := by
      rw [complete_string all, complete_array]
      simp [complete_string names, complete_object]
    have within : Within (.ofDocuments wordDocuments) 16 (.string "http://words/all") := by
      rw [within_string all, within_array]
      simp [within_string names, within_object]
    obtain ⟨-, bounded⟩ := process_remote {} (.ofDocuments wordDocuments) (.string _)
    apply ((bounded rfl leaves).1 complete within).2
    apply Inlines.string all (.array (.cons (.string names (.object _)) (.cons (.object _) .nil)))
  · have leaves : LeavesBase (.ofDocuments wordDocuments) (.string "http://words/self") := by
      -- The documents come back to each other, so what is involved is found by induction.
      have only {declared found : Json} (h : Involves (.ofDocuments wordDocuments) declared found)
          (hdeclared : declared = .string "http://words/self"
            ∨ declared = .array [.string "http://words/self"]) :
          found = .string "http://words/self" ∨ found = .array [.string "http://words/self"] := by
        induction h with
        | self => apply hdeclared
        | item member inner ih =>
            obtain h | h := hdeclared
            · cases h
            · cases h
              apply ih (.inl (List.mem_singleton.mp member))
        | document yields inner ih =>
            obtain h | h := hdeclared
            · cases h
              apply ih (.inr (yields.unique self))
            · cases h
      intro entries h
      simpa using only h (.inl rfl)
    have long (length : Nat) : Chain (.ofDocuments wordDocuments) (.string "http://words/self")
        (List.replicate (length + 1) "http://words/self") := by
      induction length with
      | zero => apply Chain.last
      | succ length ih => apply Chain.document self (.item (by simp) ih)
    obtain ⟨-, bounded⟩ := process_remote {} (.ofDocuments wordDocuments) (.string _)
    apply (bounded rfl leaves).2 _ (long 16) (by simp)

/-! ### Keys and values -/

section Meanings

variable {context : Context} {key iri : String}

/-- What a defined term stands for is the IRI of its definition, which is no keyword. -/
theorem definedMeaning_iri {definition : Definition}
    (h : definedMeaning definition = .property iri ∨ definedMeaning definition = .reverse iri) :
  definition.iri = some iri ∧ Keyword.isKeyword iri = false
  := by
  unfold definedMeaning at h
  split at h
  · simp at h
  · rename_i found hfound
    split at h
    · simp at h
    · rename_i free
      obtain rfl : found = iri := by
        split at h
        · simpa using h
        · simpa using h
      use hfound
      simp [Keyword.isKeyword, free]

/-- What another key stands for is what it is expanded to. -/
theorem expandReference?_of_meaning
    (h : context.undefinedMeaning key = .property iri
      ∨ context.undefinedMeaning key = .reverse iri) :
  context.expandReference? key true = some iri
  := by
  unfold undefinedMeaning at h
  split at h
  · simp at h
  · unfold expandReference?
    split at h
    · rename_i lead suffix compact
      split at h
      · simp at h
      · simpa [compact] using h
    · rename_i simple
      split at h
      · rename_i absolute
        simpa [simple, absolute] using h
      · rename_i relative
        cases vocab : context.vocab with
        | none => simp [vocab] at h
        | some vocabulary => simpa [simple, relative, vocab] using h

/-- A value without an IRI of its own is a reference. -/
theorem expandReference?_eq_none {value : String} :
  context.expandReference? value true = none
    ↔ Iri.compact? value = none ∧ Iri.hasScheme value = false ∧ context.vocab = none
      ∧ ∀ base, context.base = some base → Iri.resolve? base value = none
  := by
  unfold expandReference?
  cases Iri.compact? value with
  | some parts => simp
  | none =>
      cases Iri.hasScheme value with
      | true => simp
      | false => cases context.vocab <;> simp

end Meanings

/-- A key that stands for a property is expanded to it as a value.  A term that is declared to mean
nothing is expanded to nothing only if nothing else is made of its name: no compact and no absolute
IRI, no name of the vocabulary and no reference. -/
theorem expand_meaning (context : Context) (key : String) (plain : Keyword.isKeyword key = false) :
  (∀ iri, context.meaning key = .property iri ∨ context.meaning key = .reverse iri →
      context.expand? key true = some iri)
    ∧ ∀ definition, context.definition? key = some definition → definition.iri = none →
        context.meaning key = .unmapped
          ∧ (context.expand? key true = none
            ↔ Iri.compact? key = none ∧ Iri.hasScheme key = false ∧ context.vocab = none
              ∧ ∀ base, context.base = some base → Iri.resolve? base key = none)
  := by
  have unknown : Keyword.ofText? key = none := by simpa [Keyword.isKeyword] using plain
  constructor
  · intro iri h
    rw [meaning, unknown] at h
    cases hdefinition : context.definition? key with
    | some definition =>
        obtain ⟨hiri, free⟩ := definedMeaning_iri (by simpa [hdefinition] using h)
        simp [expand?, plain, hdefinition, hiri, free]
    | none =>
        have hreference := expandReference?_of_meaning (by simpa [hdefinition] using h)
        simp [expand?, plain, hdefinition, hreference]
  · intro definition hdefinition hiri
    constructor
    · simp [meaning, unknown, hdefinition, definedMeaning, hiri]
    · rw [← expandReference?_eq_none]
      simp [expand?, plain, hdefinition, hiri]

/-- A term for a property, and one that is declared to mean nothing. -/
def mutedTerms : Entries Json :=
  [("name", .string "schema:name"), ("note", .null)]

/-- A term for a property is expanded to it, and one that means nothing to nothing. -/
theorem expand_meaning_name :
  ∃ context, ({} : Context).process .disabled (.object mutedTerms) = .ok context
    ∧ context.expand? "name" true = some "schema:name"
    ∧ context.meaning "note" = .unmapped ∧ context.expand? "note" true = none
  := by
  have houtcome : (({} : Context).process .disabled (.object mutedTerms)).toOption.map
      (fun context => (context.meaning "name", (context.definition? "note").map (·.iri),
        context.vocab, context.base))
        = some (.property "schema:name", some none, none, none) := by
    decide +kernel
  obtain ⟨context, h, heq⟩ := exists_of_outcome _ _ houtcome
  simp only [Prod.mk.injEq] at heq
  obtain ⟨hname, hnote, hvocab, hbase⟩ := heq
  obtain ⟨definition, hdefinition, hiri⟩ := Option.map_eq_some_iff.mp hnote
  obtain ⟨expanded, -⟩ := expand_meaning context "name" (by decide)
  obtain ⟨-, muted⟩ := expand_meaning context "note" (by decide)
  obtain ⟨unmapped, left⟩ := muted definition hdefinition hiri
  use context, h, expanded _ (.inl hname), unmapped
  apply left.mpr
  use by decide, by decide, hvocab
  simp [hbase]

/-- With a vocabulary, a term that is declared to mean nothing is a name of it as a value. -/
theorem expand_unlike_note :
  ∃ context, ({} : Context).process .disabled
        (.object (("@vocab", .string "http://words/") :: mutedTerms)) = .ok context
    ∧ context.meaning "note" = .unmapped
    ∧ context.expand? "note" true = some "http://words/note"
  := by
  have houtcome : (({} : Context).process .disabled
        (.object (("@vocab", .string "http://words/") :: mutedTerms))).toOption.map
      (fun context => (context.meaning "note", context.expand? "note" true))
        = some (.unmapped, some "http://words/note") := by
    decide +kernel
  obtain ⟨context, h, heq⟩ := exists_of_outcome _ _ houtcome
  use context, h
  simpa using heq

end Context

end LinkedQuery
