import LinkedQuery.Context.Processing
import LinkedQuery.Proofs.Reading.Visit
import Mathlib.Tactic.Use

/-!
# References between entries

The entries of a context object refer to each other by the names in their values.  Defining an entry
is defining what it refers to, and then reading its value in the context that has come of it:
`definition_eq_ok` says so.  What is read depends on the vocabulary, on the IRIs of these names and
on what the term itself has been before (`entryDefinition_congr`).
-/

namespace LinkedQuery

namespace Creation

/-! ### References -/

/-- The name to which a value refers: itself, or the lead of a compact IRI.  A term is not referred
to by the leads in its own value. -/
def reference? (term value : String) : Option String :=
  if Keyword.isKeyword value then none
  else
    match Iri.compact? value with
    | some (lead, _) => if lead = term then none else some lead
    | none => if Iri.hasScheme value then none else some value

/-- The name to which the mapping of a term refers. -/
def mappingReference? (term : String) (object : Entries Json) : Option String :=
  match object.lookup Keyword.reverse.text with
  | some (.string value) => reference? term value
  | some _ => none
  | none =>
    match object.lookup Keyword.id.text with
    | some (.string value) => reference? term value
    | some _ => none
    | none =>
      if (Iri.compact? term).isSome || Iri.hasScheme term then reference? term term else none

/-- The name to which the coercion of a term refers. -/
def coercionReference? (term : String) : Option Json → Option String
  | some (.string name) => reference? term name
  | _ => none

/-- The names to which the value of an entry refers, in the order in which they are needed. -/
def references (term : String) : Json → List String
  | .string value => (reference? term value).toList
  | .object object =>
    (mappingReference? term object).toList
      ++ (coercionReference? term (object.lookup Keyword.type.text)).toList
  | _ => []

/-- Defines the entries to which names refer. -/
def requireAll (declared : Entries Json) (define : Definer) (names : List String)
    (state : Creation) : Except ContextFault Creation :=
  names.foldlM (fun state name => require declared define name state) state

/-! ### Readings -/

/-- A step that defines nothing. -/
def stay : Definer := fun _ state => .ok state

/-- What a value maps a term to, in a context that knows the names to which it refers. -/
def resolved (context : Context) (term value : String) : Except ContextFault String :=
  if Keyword.isKeyword value then .ok value
  else
    match Iri.compact? value with
    | some (lead, suffix) => .ok ((context.termIri? lead).elim value (· ++ suffix))
    | none =>
      if Iri.hasScheme value then .ok value
      else
        match context.termIri? value with
        | some iri => .ok iri
        | none => inVocab term value ⟨context, []⟩

/-- The mapping that an object gives a term, in a context that knows the names to which it
refers. -/
def mappingIn (context : Context) (term : String) (object : Entries Json) :
    Except ContextFault Definition :=
  (mapping [] stay term object ⟨context, []⟩).map Prod.fst

/-- The coercion that a value gives a term, in a context that knows the names to which it refers. -/
def coercionIn (context : Context) (term : String) (type : Option Json) :
    Except ContextFault (Option Coercion) :=
  (coercion [] stay term ⟨context, []⟩ type).map Prod.fst

/-- The definition that an entry gives a term, in a context that knows the names to which the value
refers. -/
def entryDefinition (context : Context) (term : String) (value : Json) :
    Except ContextFault Definition :=
  (definition [(term, value)] stay term ⟨context, []⟩).map Prod.fst

section Equations

variable (declared : Entries Json) (define : Definer) (term : String) (state : Creation)

theorem requireAll_nil :
  requireAll declared define [] state = .ok state
  := rfl

theorem requireAll_singleton (name : String) :
  requireAll declared define [name] state = require declared define name state
  := by
  simp [requireAll]

theorem requireAll_append (names others : List String) :
  requireAll declared define (names ++ others) state
    = (do
        let state ← requireAll declared define names state
        requireAll declared define others state)
  := by
  simp [requireAll]

theorem require_stay (name : String) :
  require declared stay name state = .ok state
  := by
  simp [require, stay]

theorem requireAll_stay (names : List String) :
  requireAll declared stay names state = .ok state
  := by
  induction names with
  | nil => rfl
  | cons name names ih => rw [requireAll, List.foldlM_cons, require_stay, ok_bind, ← requireAll, ih]

/-- To resolve a value is to define what it refers to, and to read it then. -/
theorem resolve_eq (value : String) :
  resolve declared define term value state
    = (do
        let state ← requireAll declared define (reference? term value).toList state
        let iri ← resolved state.context term value
        .ok (iri, state))
  := by
  unfold resolve reference? resolved
  cases hkeyword : Keyword.isKeyword value with
  | true => rfl
  | false =>
      cases hcompact : Iri.compact? value with
      | some parts =>
          obtain ⟨lead, suffix⟩ := parts
          by_cases hlead : lead = term
          · simp [hlead, requireAll_nil, ok_bind]
          · simp [hlead, requireAll_singleton, ok_bind]
      | none =>
          cases hscheme : Iri.hasScheme value with
          | true => rfl
          | false =>
              simp only [Option.toList_some, requireAll_singleton, Bool.false_eq_true, if_false]
              congr 1
              funext known
              cases known.context.termIri? value with
              | none => rfl
              | some iri => rfl

/-- Where the references are known, a value is only read. -/
theorem resolve_stay (value : String) :
  resolve declared stay term value state
    = (do
        let iri ← resolved state.context term value
        .ok (iri, state))
  := by
  rw [resolve_eq, requireAll_stay, ok_bind]

/-- What is made of a resolved value is made of it where the references are known. -/
theorem resolve_known {α : Type} (value : String) (result : String → α) :
  (do
      let (iri, state) ← resolve declared define term value state
      .ok (result iri, state) : Except ContextFault (α × Creation))
    = (do
        let state ← requireAll declared define (reference? term value).toList state
        let made ← (do
          let (iri, known) ← resolve [] stay term value ⟨state.context, []⟩
          .ok (result iri, known) : Except ContextFault (α × Creation)).map Prod.fst
        .ok (made, state))
  := by
  simp only [resolve_stay, resolve_eq declared define, ok_bind, bind_assoc]
  congr 1
  funext known
  cases resolved known.context term value <;> rfl

/-- The mapping of a term is found by defining what it refers to, and reading it then. -/
theorem mapping_eq (object : Entries Json) :
  mapping declared define term object state
    = (do
        let state ← requireAll declared define (mappingReference? term object).toList state
        let mapped ← mappingIn state.context term object
        .ok (mapped, state))
  := by
  have known (value : String) := resolve_known declared define term state value
    fun iri => ({ iri := some iri } : Definition)
  unfold mapping mappingReference? mappingIn mapping resolveItself
  cases object.lookup Keyword.reverse.text with
  | some reversed =>
      cases reversed with
      | string value =>
          exact resolve_known declared define term state value
            fun iri => ({ iri := some iri, reverse := true } : Definition)
      | _ => rfl
  | none =>
      cases object.lookup Keyword.id.text with
      | some named =>
          cases named with
          | string value => exact known value
          | _ => rfl
      | none =>
          cases (Iri.compact? term).isSome || Iri.hasScheme term with
          | true => exact known term
          | false =>
              simp only [Bool.false_eq_true, if_false, Option.toList_none, requireAll_nil, ok_bind]
              unfold inVocab
              cases state.context.vocab <;> rfl

/-- The coercion of a term is found by defining what it refers to, and reading it then. -/
theorem coercion_eq (type : Option Json) :
  coercion declared define term state type
    = (do
        let state ← requireAll declared define (coercionReference? term type).toList state
        let coercion ← coercionIn state.context term type
        .ok (coercion, state))
  := by
  unfold coercionIn
  cases type with
  | none => rfl
  | some type =>
      cases type with
      | string name =>
          have known := resolve_known declared define term state name
            fun iri => some (Coercion.datatype iri)
          cases hkeyword : Keyword.ofText? name with
          | none => simpa only [coercion, coercionReference?, hkeyword] using known
          | some keyword =>
              have hreference : reference? term name = none := by
                simp [reference?, Keyword.isKeyword, hkeyword]
              cases keyword <;>
                first
                | simpa only [coercion, coercionReference?, hkeyword] using known
                | (simp only [coercion, coercionReference?, hkeyword, hreference]; rfl)
      | _ => rfl

/-- A null entry refers to nothing. -/
theorem definition_null (entry : declared.lookup term = some .null) :
  definition declared define term state = .ok ({}, state)
  := by
  rw [definition, entry]

theorem definition_string {value : String} (entry : declared.lookup term = some (.string value)) :
  definition declared define term state
    = (do
        let state ← requireAll declared define (reference? term value).toList state
        let iri ← resolved state.context term value
        .ok ({ iri := some iri }, state))
  := by
  rw [definition, entry]
  simp only [resolve_eq, bind_assoc, ok_bind]

theorem definition_object {object : Entries Json}
    (entry : declared.lookup term = some (.object object)) :
  definition declared define term state
    = (do
        let state ← requireAll declared define (mappingReference? term object).toList state
        let mapped ← mappingIn state.context term object
        let containers ← containers (object.lookup Keyword.container.text)
        let type := object.lookup Keyword.type.text
        let state ← requireAll declared define (coercionReference? term type).toList state
        let coercion ← coercionIn state.context term type
        .ok ({ mapped with
          containers := containers
          coercion := coercion
          valueContext := object.lookup Keyword.context.text }, state))
  := by
  rw [definition, entry]
  simp only [mapping_eq, coercion_eq, bind_assoc, ok_bind]

end Equations

section Readings

variable (context : Context) (term : String)

theorem entryDefinition_null :
  entryDefinition context term .null = .ok {}
  := by
  rw [entryDefinition, definition_null _ _ _ _ (by simp)]
  rfl

theorem entryDefinition_string (value : String) :
  entryDefinition context term (.string value)
    = (do
        let iri ← resolved context term value
        .ok { iri := some iri })
  := by
  rw [entryDefinition, definition_string _ _ _ _ (by simp; rfl), requireAll_stay, ok_bind]
  cases resolved context term value <;> rfl

theorem entryDefinition_object (object : Entries Json) :
  entryDefinition context term (.object object)
    = (do
        let mapped ← mappingIn context term object
        let containers ← containers (object.lookup Keyword.container.text)
        let coercion ← coercionIn context term (object.lookup Keyword.type.text)
        .ok { mapped with
          containers := containers
          coercion := coercion
          valueContext := object.lookup Keyword.context.text })
  := by
  rw [entryDefinition, definition_object _ _ _ _ (by simp; rfl), requireAll_stay, ok_bind]
  simp only [requireAll_stay, ok_bind]
  cases mappingIn context term object with
  | error fault => rfl
  | ok mapped =>
      cases containers (object.lookup Keyword.container.text) with
      | error fault => rfl
      | ok containers =>
          cases coercionIn context term (object.lookup Keyword.type.text) <;> rfl

theorem mappingIn_id {object : Entries Json} {value : String}
    (forward : object.lookup Keyword.reverse.text = none)
    (id : object.lookup Keyword.id.text = some (.string value)) :
  mappingIn context term object
    = (do
        let iri ← resolved context term value
        .ok { iri := some iri })
  := by
  rw [mappingIn, mapping, forward, id]
  simp only [resolve_stay]
  cases resolved context term value <;> rfl

theorem mappingIn_reverse {object : Entries Json} {value : String}
    (reversed : object.lookup Keyword.reverse.text = some (.string value)) :
  mappingIn context term object
    = (do
        let iri ← resolved context term value
        .ok { iri := some iri, reverse := true })
  := by
  rw [mappingIn, mapping, reversed]
  simp only [resolve_stay]
  cases resolved context term value <;> rfl

/-- A term without a mapping is mapped to itself: as an IRI if it has the form of one, and as a name
of the vocabulary otherwise. -/
theorem mappingIn_itself {object : Entries Json}
    (forward : object.lookup Keyword.reverse.text = none)
    (unnamed : object.lookup Keyword.id.text = none) :
  mappingIn context term object
    = (do
        let iri ←
          (if (Iri.compact? term).isSome || Iri.hasScheme term then resolved context term term
          else inVocab term term ⟨context, []⟩)
        .ok { iri := some iri })
  := by
  rw [mappingIn, mapping, forward, unnamed]
  simp only [resolveItself, resolve_stay]
  split
  · cases resolved context term term <;> rfl
  · cases inVocab term term ⟨context, []⟩ <;> rfl

end Readings

/-! ### What is read -/

/-- Contexts with one vocabulary that give some names the same IRIs. -/
structure Alike (names : List String) (one other : Context) : Prop where
  vocab : one.vocab = other.vocab
  termIri? : ∀ name ∈ names, one.termIri? name = other.termIri? name

section Congruence

variable {one other : Context} (term : String)

theorem Alike.of_subset {some all : List String} (alike : Alike all one other)
    (subset : some ⊆ all) :
  Alike some one other where
  vocab := alike.vocab
  termIri? name hname := alike.termIri? name (subset hname)

theorem resolved_congr {value : String}
    (alike : Alike (term :: (reference? term value).toList) one other) :
  resolved one term value = resolved other term value
  := by
  unfold resolved
  cases hkeyword : Keyword.isKeyword value with
  | true => rfl
  | false =>
      cases hcompact : Iri.compact? value with
      | some parts =>
          obtain ⟨lead, suffix⟩ := parts
          have hlead : one.termIri? lead = other.termIri? lead := by
            apply alike.termIri?
            by_cases heq : lead = term <;> simp [reference?, hkeyword, hcompact, heq]
          simp only [hlead]
      | none =>
          cases hscheme : Iri.hasScheme value with
          | true => rfl
          | false =>
              have hvalue : one.termIri? value = other.termIri? value := by
                apply alike.termIri?
                simp [reference?, hkeyword, hcompact, hscheme]
              simp only [hvalue, inVocab, alike.vocab]

theorem mappingIn_congr {object : Entries Json}
    (alike : Alike (term :: (mappingReference? term object).toList) one other) :
  mappingIn one term object = mappingIn other term object
  := by
  unfold mappingIn mapping resolveItself
  unfold mappingReference? at alike
  simp only [resolve_stay]
  cases hreverse : object.lookup Keyword.reverse.text with
  | some reversed =>
      cases reversed with
      | string value =>
          rw [hreverse] at alike
          simp only [resolved_congr term alike]
          cases resolved other term value <;> rfl
      | _ => rfl
  | none =>
      rw [hreverse] at alike
      cases hid : object.lookup Keyword.id.text with
      | some named =>
          cases named with
          | string value =>
              rw [hid] at alike
              simp only [resolved_congr term alike]
              cases resolved other term value <;> rfl
          | _ => rfl
      | none =>
          rw [hid] at alike
          cases hitself : (Iri.compact? term).isSome || Iri.hasScheme term with
          | true =>
              simp only [hitself, if_true] at alike
              simp only [if_true, resolved_congr term alike]
              cases resolved other term term <;> rfl
          | false =>
              simp only [Bool.false_eq_true, if_false, inVocab, alike.vocab]
              cases other.vocab <;> rfl

theorem coercionIn_congr {type : Option Json}
    (alike : Alike (term :: (coercionReference? term type).toList) one other) :
  coercionIn one term type = coercionIn other term type
  := by
  unfold coercionIn
  cases type with
  | none => rfl
  | some type =>
      cases type with
      | string name =>
          simp only [coercion, resolve_stay, resolved_congr term alike]
          cases resolved other term name with
          | error fault => split <;> rfl
          | ok iri => split <;> rfl
      | _ => rfl

/-- The definition by an entry depends on the vocabulary and the IRIs of the references. -/
theorem entryDefinition_congr {value : Json}
    (alike : Alike (term :: references term value) one other) :
  entryDefinition one term value = entryDefinition other term value
  := by
  cases value with
  | null => rw [entryDefinition_null, entryDefinition_null]
  | string name =>
      rw [entryDefinition_string, entryDefinition_string, resolved_congr term alike]
  | object object =>
      have mapped : mappingIn one term object = mappingIn other term object := by
        apply mappingIn_congr term (alike.of_subset _)
        grind [references]
      have coerced : coercionIn one term (object.lookup Keyword.type.text)
          = coercionIn other term (object.lookup Keyword.type.text) := by
        apply coercionIn_congr term (alike.of_subset _)
        grind [references]
      rw [entryDefinition_object, entryDefinition_object, mapped, coerced]
  | _ => simp [entryDefinition, definition, Except.map]

end Congruence

/-! ### Defining an entry -/

/-- Defining an entry is defining what it refers to, and reading its value then, if nothing that
has been referred to changes on the way. -/
theorem definition_ok_iff (declared : Entries Json) (define : Definer) (term : String)
    (state final : Creation) {value : Json} {defined : Definition}
    (entry : declared.lookup term = some value)
    (stable : ∀ names others between,
      requireAll declared define names state = .ok between →
      requireAll declared define others between = .ok final →
      Alike (term :: names) between.context final.context) :
  definition declared define term state = .ok (defined, final)
    ↔ requireAll declared define (references term value) state = .ok final
      ∧ entryDefinition final.context term value = .ok defined
  := by
  cases value with
  | null =>
      simp only [definition_null _ _ _ _ entry, entryDefinition_null, references, requireAll_nil]
      grind
  | string name =>
      rw [definition_string _ _ _ _ entry, entryDefinition_string, references]
      simp only [bind_eq_ok]
      grind
  | object object =>
      rw [definition_object _ _ _ _ entry, entryDefinition_object, references, requireAll_append]
      simp only [bind_eq_ok]
      constructor
      · rintro ⟨between, mapping, mapped, hmapped, containers, hcontainers, last, coercing,
          coercion, hcoercion, h⟩
        cases h
        rw [mappingIn_congr term (stable _ _ _ mapping coercing)] at hmapped
        constructor
        · use between, mapping
        · use mapped, hmapped, containers, hcontainers, coercion, hcoercion
      · rintro ⟨⟨between, mapping, coercing⟩, mapped, hmapped, containers, hcontainers, coercion,
          hcoercion, h⟩
        cases h
        rw [← mappingIn_congr term (stable _ _ _ mapping coercing)] at hmapped
        use between, mapping, mapped, hmapped, containers, hcontainers, final, coercing, coercion,
          hcoercion
  | _ => simp [definition, entryDefinition, entry, Except.map]

end Creation

end LinkedQuery
