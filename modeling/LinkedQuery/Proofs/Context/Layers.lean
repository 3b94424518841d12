import LinkedQuery.Proofs.Context.Frame
import LinkedQuery.Proofs.Iri.Scheme
import LinkedQuery.Proofs.Json.Keys

/-!
# Layers of contexts

However local contexts refer to documents and follow each other, what comes of them is made by
context objects that are put on top of each other (`reached_iff_built`).  So what holds of the empty
context and is kept by each layer holds of all contexts.
-/

namespace LinkedQuery

/-- Whether no document that is served has an object with two entries under one key. -/
def Loader.HasDistinctKeys (loader : Loader) : Prop :=
  ∀ iri document, loader iri = .ok document → document.hasDistinctKeys = true

namespace Context

/-- The contexts that come of the empty one by local contexts, each under a loader of its own. -/
inductive Reached : Context → Prop where
  | empty : Reached {}
  | process {context result : Context} {loader : Loader} {declared : Json}
      (reached : Reached context) (served : loader.HasDistinctKeys)
      (distinct : declared.hasDistinctKeys = true)
      (h : context.process loader declared = .ok result) : Reached result

/-- A context object, with the context on which it is put and the one that comes of it. -/
structure Layer where
  before : Context
  declared : Entries Json
  after : Context
  distinct : (Json.object declared).hasDistinctKeys = true
  applies : before.withObject declared = .ok after

/-- The contexts that come of the empty one by layers with a property. -/
inductive Built (P : Layer → Prop) : Context → Prop where
  | empty : Built P {}
  | layer (layer : Layer) (under : Built P layer.before) (held : P layer) : Built P layer.after

theorem Built.mono {P Q : Layer → Prop} (h : ∀ layer, P layer → Q layer) {context : Context}
    (built : Built P context) :
  Built Q context
  := by
  induction built with
  | empty => apply Built.empty
  | layer layer _ held ih => apply Built.layer layer ih (h layer held)

/-! ### Invariants -/

section Invariants

variable {P : Context → Prop} {loader : Loader}

/-- Whether what holds of a context holds of what comes of it by following references. -/
def Follower.Keeps (P : Context → Prop) (follow : Follower) : Prop :=
  ∀ context reference result, P context → follow context reference = .ok result → P result

mutual

theorem processWith_keeps (empty : P {}) (step : ∀ layer : Layer, P layer.before → P layer.after)
    {follow : Follower} (keeps : follow.Keeps P) :
    ∀ {declared : Json} {context result : Context}, declared.hasDistinctKeys = true →
      P context → processWith follow context declared = .ok result → P result
  | .null, _, _, _, _, h => by
      cases h
      apply empty
  | .boolean _, _, _, _, _, h => by cases h
  | .number _, _, _, _, _, h => by cases h
  | .string reference, context, result, _, held, h => keeps context reference result held h
  | .array _, _, _, distinct, held, h =>
      processEach_keeps empty step keeps (Json.hasDistinctKeys_array.mp distinct) held h
  | .object declared, context, result, distinct, held, h =>
      step ⟨context, declared, result, distinct, h⟩ held

theorem processEach_keeps (empty : P {}) (step : ∀ layer : Layer, P layer.before → P layer.after)
    {follow : Follower} (keeps : follow.Keeps P) :
    ∀ {items : List Json} {context result : Context},
      (∀ item ∈ items, item.hasDistinctKeys = true) →
      P context → processEach follow context items = .ok result → P result
  | [], _, _, _, held, h => by
      cases h
      apply held
  | item :: items, context, result, distinct, held, h => by
      rw [processEach] at h
      cases hfirst : processWith follow context item with
      | error fault => simp [hfirst] at h
      | ok next =>
          rw [hfirst] at h
          have between : P next :=
            processWith_keeps empty step keeps (distinct item (by simp)) held hfirst
          have rest : ∀ other ∈ items, other.hasDistinctKeys = true :=
            fun other hother => distinct other (List.mem_cons_of_mem _ hother)
          apply processEach_keeps empty step keeps rest between h

end

theorem follow_keeps (empty : P {}) (step : ∀ layer : Layer, P layer.before → P layer.after)
    (served : loader.HasDistinctKeys) (depth : Nat) :
  Follower.Keeps P (follow loader depth)
  := by
  induction depth with
  | zero =>
      intro context reference result _ h
      cases h
  | succ depth ih =>
      intro context reference result held h
      obtain ⟨document, loads, h⟩ := bind_eq_ok.mp h
      cases hremote : document.entry? Keyword.context.text with
      | none => simp [hremote] at h
      | some remote =>
          rw [hremote] at h
          have distinct := Json.hasDistinctKeys_of_entry? (served _ document loads) hremote
          apply processWith_keeps empty step ih distinct held h

/-- What holds of the empty context and is kept by each layer holds of all contexts. -/
theorem Reached.invariant (empty : P {})
    (step : ∀ layer : Layer, P layer.before → P layer.after) {context : Context}
    (reached : Reached context) :
  P context
  := by
  induction reached with
  | empty => apply empty
  | process _ served distinct h ih =>
      have keeps := follow_keeps empty step served greatestDepth
      apply processWith_keeps empty step keeps distinct ih h

end Invariants

/-- The contexts that come of local contexts are those that come of layers. -/
theorem reached_iff_built {context : Context} :
  Reached context ↔ Built (fun _ => True) context
  := by
  constructor
  · intro reached
    apply reached.invariant Built.empty
    intro layer under
    apply Built.layer layer under trivial
  · intro built
    induction built with
    | empty => apply Reached.empty
    | layer layer _ _ ih =>
        have served : Loader.disabled.HasDistinctKeys := fun _ _ h => by cases h
        apply Reached.process ih served layer.distinct layer.applies

/-! ### Bases and names -/

/-- Whether the base of a context has a scheme, and no keyword is a term. -/
structure Regular (context : Context) : Prop where
  base : ∀ iri, context.base = some iri → Iri.hasScheme iri = true
  plain : ∀ name ∈ context.terms.names, Keyword.isKeyword name = false

/-- An entry for the base sets it to a text with a scheme. -/
theorem Regular.withBase {context based : Context} {entry : Option Json}
    (regular : context.Regular) (h : context.withBase entry = .ok based) :
  based.Regular
  where
  base := by
    unfold Context.withBase at h
    intro iri hiri
    split at h
    · cases h
      apply regular.base iri hiri
    · cases h
      cases hiri
    · split at h
      · cases h
        cases hiri
        assumption
      · split at h
        · cases h
          apply Iri.hasScheme_resolve? hiri
        · cases h
    · cases h
  plain := by
    rw [(withBase_frame h).2.1]
    apply regular.plain

theorem Regular.withKeywords {context keyed : Context} {declared : Entries Json}
    (regular : context.Regular) (h : context.withKeywords declared = .ok keyed) :
  keyed.Regular
  := by
  obtain ⟨based, hbased, hvocab⟩ := withKeywords_based h
  obtain ⟨base, terms, -⟩ := withVocab_frame hvocab
  have regular' := regular.withBase hbased
  constructor
  · rw [base]
    apply regular'.base
  · rw [terms]
    apply regular'.plain

theorem Layer.regular (layer : Layer) (regular : layer.before.Regular) :
  layer.after.Regular
  := by
  have distinct := (Json.hasDistinctKeys_object.mp layer.distinct).1
  obtain ⟨keyed, final, hkeyed, run, -, hafter⟩ := withObject_reaches distinct layer.applies
  have regular' := regular.withKeywords hkeyed
  rw [← hafter]
  constructor
  · rw [run.context_eq.1]
    apply regular'.base
  · obtain ⟨added, hnames, -, hadded⟩ := run.names_eq
    rw [hnames]
    intro name hname
    rcases List.mem_append.mp hname with hname | hname
    · apply regular'.plain name hname
    · apply run.plain ((hadded name).mp hname).1

/-- In all contexts the base has a scheme, and no keyword is a term. -/
theorem Reached.regular {context : Context} (reached : Reached context) :
  context.Regular
  := by
  apply reached.invariant _ Layer.regular
  constructor
  · simp
  · simp [Entries.names]

end Context

end LinkedQuery
