import LinkedQuery.Proofs.Context.Declaration
import Mathlib.Tactic.Use

/-!
# Contexts with the same IRIs

Local contexts are processed alike on top of contexts with one base, one vocabulary and one IRI for
each name: `Context.SameIris.process`.  What else a term declares, its containers, its coercion and
the context for its values, is passed on and not read.
-/

namespace LinkedQuery

/-! ### Simulation -/

/-- A computation that succeeds where another one does, with a related result. -/
def Simulates {ε α : Type} (related : α → α → Prop) (first second : Except ε α) : Prop :=
  ∀ result, first = .ok result → ∃ result', second = .ok result' ∧ related result result'

section Simulates

variable {ε α β : Type} {related : α → α → Prop} {onwards : β → β → Prop}
  {first second : Except ε α} {rest rest' : α → Except ε β}

theorem Simulates.ok {result result' : α} (h : related result result') :
  Simulates (ε := ε) related (.ok result) (.ok result')
  := by
  rintro _ ⟨rfl⟩
  use result', rfl

theorem Simulates.error {fault : ε} :
  Simulates related (.error fault) second
  := by
  rintro _ ⟨⟩

theorem Simulates.bind (head : Simulates related first second)
    (tail : ∀ result result', related result result' →
      Simulates onwards (rest result) (rest' result')) :
  Simulates onwards (first >>= rest) (second >>= rest')
  := by
  intro result h
  obtain ⟨found, hfirst, hrest⟩ := bind_eq_ok.mp h
  obtain ⟨found', hsecond, hrelated⟩ := head found hfirst
  obtain ⟨result', hrest', h'⟩ := tail found found' hrelated result hrest
  use result', bind_eq_ok.mpr ⟨found', hsecond, hrest'⟩

/-- What does not depend on the sides goes the same way on both. -/
theorem Simulates.bind_same {γ : Type} {step : Except ε γ} {rest rest' : γ → Except ε β}
    (tail : ∀ result, Simulates onwards (rest result) (rest' result)) :
  Simulates onwards (step >>= rest) (step >>= rest')
  := by
  cases step with
  | error fault => apply Simulates.error
  | ok result => apply tail result

end Simulates

/-! ### The same IRIs -/

/-- Contexts with one base, one vocabulary and one IRI for each name. -/
structure Context.SameIris (one other : Context) : Prop where
  base : one.base = other.base
  vocab : one.vocab = other.vocab
  iri : ∀ name, (one.definition? name).bind (·.iri) = (other.definition? name).bind (·.iri)

/-- Contexts under construction with the same IRIs, where the same is defined. -/
structure Creation.SameIris (state state' : Creation) : Prop where
  context : state.context.SameIris state'.context
  done : state.done = state'.done

namespace Context

variable {one other : Context}

theorem SameIris.refl (context : Context) :
  context.SameIris context
  where
  base := rfl
  vocab := rfl
  iri _ := rfl

theorem SameIris.termIri? (same : one.SameIris other) (name : String) :
  one.termIri? name = other.termIri? name
  := by
  rw [Context.termIri?, Context.termIri?, same.iri]

theorem SameIris.alike (same : one.SameIris other) (names : List String) :
  Creation.Alike names one other
  where
  vocab := same.vocab
  termIri? name _ := same.termIri? name

/-- The same IRIs are expanded alike. -/
theorem SameIris.expand? (same : one.SameIris other) (value : String) (inVocab : Bool) :
  one.expand? value inVocab = other.expand? value inVocab
  := by
  simp only [Context.expand?, expandReference?, same.iri, same.termIri?, same.vocab, same.base]

end Context

/-! ### Terms are declared alike -/

namespace Creation

section Uniform

variable {declared : Entries Json} {define : Definer} {state state' : Creation}

/-- The definitions of an entry are equal, and lead to the same IRIs. -/
def SameDefinition (found found' : Definition × Creation) : Prop :=
  found.1 = found'.1 ∧ found.2.SameIris found'.2

/-- A way to define entries that goes alike for the same IRIs. -/
def Uniform (define : Definer) : Prop :=
  ∀ name state state', SameIris state state' →
    Simulates SameIris (define name state) (define name state')

theorem SameIris.record (same : SameIris state state') (term : String) (defined : Definition) :
  SameIris (state.record term defined) (state'.record term defined)
  where
  context := {
    base := same.context.base
    vocab := same.context.vocab
    iri := fun name => by
      by_cases hname : name = term
      · rw [hname, definition?_record_self, definition?_record_self]
      · rw [definition?_record_of_ne _ _ _ hname, definition?_record_of_ne _ _ _ hname]
        apply same.context.iri name }
  done := congrArg (term :: ·) same.done

theorem Uniform.requireAll (uniform : Uniform define) (names : List String)
    (same : SameIris state state') :
  Simulates SameIris (requireAll declared define names state)
    (requireAll declared define names state')
  := by
  induction names generalizing state state' with
  | nil => apply Simulates.ok same
  | cons name names ih =>
      rw [Creation.requireAll, Creation.requireAll, List.foldlM_cons, List.foldlM_cons]
      have first : Simulates SameIris (require declared define name state)
          (require declared define name state') := by
        unfold require
        split
        · apply uniform name state state' same
        · apply Simulates.ok same
      apply first.bind
      intro between between' same
      apply ih same

/-- An entry is defined alike where there are the same IRIs. -/
theorem Uniform.definition (uniform : Uniform define) (term : String)
    (same : SameIris state state') :
  Simulates SameDefinition (definition declared define term state)
    (definition declared define term state')
  := by
  cases entry : declared.lookup term with
  | none => simp only [Creation.definition, entry, Simulates.error]
  | some value =>
      cases value with
      | null =>
          rw [definition_null _ _ _ _ entry, definition_null _ _ _ _ entry]
          apply Simulates.ok ⟨rfl, same⟩
      | string value =>
          rw [definition_string _ _ _ _ entry, definition_string _ _ _ _ entry]
          apply (uniform.requireAll _ same).bind
          intro known known' same
          rw [resolved_congr term (same.context.alike _)]
          apply Simulates.bind_same
          intro iri
          apply Simulates.ok ⟨rfl, same⟩
      | object object =>
          rw [definition_object _ _ _ _ entry, definition_object _ _ _ _ entry]
          apply (uniform.requireAll _ same).bind
          intro known known' same
          rw [mappingIn_congr term (same.context.alike _)]
          apply Simulates.bind_same
          intro mapped
          apply Simulates.bind_same
          intro containers
          apply (uniform.requireAll _ same).bind
          intro known known' same
          rw [coercionIn_congr term (same.context.alike _)]
          apply Simulates.bind_same
          intro coercion
          apply Simulates.ok ⟨rfl, same⟩
      | _ => simp only [Creation.definition, entry, Simulates.error]

end Uniform

/-- Entries are opened alike where there are the same IRIs. -/
theorem define_uniform (declared : Entries Json) (waiting : List String) :
  Uniform (define declared waiting)
  := by
  intro term state state' same final h
  obtain ⟨plain, ⟨done, rfl⟩ | ⟨fresh, waits, defined, known, hdefinition, rfl⟩⟩ :=
    define_ok_iff.mp h
  · use state'
    constructor
    · apply define_ok_iff.mpr ⟨plain, .inl ⟨same.done ▸ done, rfl⟩⟩
    · apply same
  · have uniform := define_uniform declared (waiting.erase term)
    obtain ⟨⟨defined', known'⟩, hdefinition', rfl, same'⟩ :=
      uniform.definition term same _ hdefinition
    use known'.record term defined
    constructor
    · apply define_ok_iff.mpr
      use plain, .inr ⟨same.done ▸ fresh, waits, defined, known', hdefinition', rfl⟩
    · apply same'.record term defined
termination_by waiting.length
decreasing_by
  rw [List.length_erase_of_mem waits]
  have := List.length_pos_of_mem waits
  omega

end Creation

/-! ### Contexts are processed alike -/

namespace Context

variable {one other : Context}

theorem SameIris.declare (same : one.SameIris other) (declared : Entries Json) :
  Simulates SameIris (one.declare declared) (other.declare declared)
  := by
  rw [Creation.declare_eq, Creation.declare_eq]
  have start : Creation.SameIris ⟨one, []⟩ ⟨other, []⟩ := ⟨same, rfl⟩
  apply ((Creation.define_uniform declared declared.names).requireAll _ start).bind
    fun _ _ same => .ok same.context

theorem SameIris.withBase (same : one.SameIris other) (value : Option Json) :
  Simulates SameIris (one.withBase value) (other.withBase value)
  := by
  have based (base : Option String) :
      SameIris { one with base := base } { other with base := base } :=
    ⟨rfl, same.vocab, same.iri⟩
  cases value with
  | none => apply Simulates.ok same
  | some value =>
      cases value with
      | null => apply Simulates.ok (based none)
      | string reference =>
          simp only [Context.withBase, same.base]
          split
          · apply Simulates.ok (based _)
          · split
            · apply Simulates.ok (based _)
            · apply Simulates.error
      | _ => apply Simulates.error

theorem SameIris.vocabOf (same : one.SameIris other) (value : String) :
  one.vocabOf value = other.vocabOf value
  := by
  simp only [Context.vocabOf, same.base, same.vocab, same.expand?]

theorem SameIris.withVocab (same : one.SameIris other) (value : Option Json) :
  Simulates SameIris (one.withVocab value) (other.withVocab value)
  := by
  have worded (vocab : Option String) :
      SameIris { one with vocab := vocab } { other with vocab := vocab } :=
    ⟨same.base, rfl, same.iri⟩
  cases value with
  | none => apply Simulates.ok same
  | some value =>
      cases value with
      | null => apply Simulates.ok (worded none)
      | string text =>
          simp only [Context.withVocab, same.vocabOf]
          apply Simulates.ok (worded _)
      | _ => apply Simulates.error

/-- Refuses what a context object may not say, whatever context it is put on. -/
def checkKeywords (declared : Entries Json) : Except ContextFault Unit := do
  match declared.lookup Keyword.version.text with
  | some version => if isSupportedVersion version then pure () else throw (.invalidVersion version)
  | none => pure ()
  if (declared.lookup Keyword.importing.text).isSome then
    throw (.unsupported Keyword.importing.text)

theorem withKeywords_eq (context : Context) (declared : Entries Json) :
  context.withKeywords declared
    = (do
        checkKeywords declared
        let based ← context.withBase (declared.lookup Keyword.base.text)
        based.withVocab (declared.lookup Keyword.vocab.text))
  := by
  unfold withKeywords checkKeywords
  cases declared.lookup Keyword.version.text with
  | none => cases (declared.lookup Keyword.importing.text).isSome <;> rfl
  | some version =>
      dsimp only
      cases isSupportedVersion version
      · rfl
      · cases (declared.lookup Keyword.importing.text).isSome <;> rfl

theorem SameIris.withObject (same : one.SameIris other) (declared : Entries Json) :
  Simulates SameIris (one.withObject declared) (other.withObject declared)
  := by
  have keyed : Simulates SameIris (one.withKeywords declared) (other.withKeywords declared) := by
    rw [withKeywords_eq, withKeywords_eq]
    apply Simulates.bind_same
    intro _
    apply (same.withBase _).bind
    intro _ _ same
    apply same.withVocab
  apply keyed.bind fun _ _ same => same.declare declared

/-- A way to follow references that goes alike for the same IRIs. -/
def Follower.Uniform (follow : Follower) : Prop :=
  ∀ reference one other, SameIris one other →
    Simulates SameIris (follow one reference) (follow other reference)

mutual

theorem SameIris.processWith {follow : Follower} (uniform : follow.Uniform)
    {one other : Context} (same : one.SameIris other) :
    ∀ declared : Json,
      Simulates SameIris (processWith follow one declared) (processWith follow other declared)
  | .null => .ok (.refl _)
  | .string reference => uniform reference one other same
  | .array items => same.processEach uniform items
  | .object declared => same.withObject declared
  | .boolean _ => .error
  | .number _ => .error

theorem SameIris.processEach {follow : Follower} (uniform : follow.Uniform)
    {one other : Context} (same : one.SameIris other) :
    ∀ items : List Json,
      Simulates SameIris (processEach follow one items) (processEach follow other items)
  | [] => .ok same
  | item :: items => by
      simp only [Context.processEach]
      intro result h
      split at h
      · cases h
      · rename_i found hfound
        obtain ⟨found', hfound', same'⟩ := same.processWith uniform item found hfound
        rw [hfound']
        apply same'.processEach uniform items result h

end

theorem follow_uniform (loader : Loader) (depth : Nat) :
  Follower.Uniform (follow loader depth)
  := by
  induction depth with
  | zero =>
      intro reference one other same
      apply Simulates.error
  | succ depth ih =>
      intro reference one other same
      simp only [follow, referenceIri, same.base]
      apply Simulates.bind_same
      intro document
      split
      · apply same.processWith ih _
      · apply Simulates.error

/-- On top of the same IRIs a local context makes the same IRIs. -/
theorem SameIris.enter (same : one.SameIris other) (loader : Loader) (declared : Option Json) :
  Simulates SameIris (one.enter loader declared) (other.enter loader declared)
  := by
  cases declared with
  | none => apply Simulates.ok same
  | some declared => apply same.processWith (follow_uniform loader greatestDepth) declared

end Context

end LinkedQuery
